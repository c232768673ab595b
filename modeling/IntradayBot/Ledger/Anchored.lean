import IntradayBot.Ledger.Sync

/-!
# Rows that are right

The fills of a symbol are in the order of their times, and those that a task has listed of it
are consecutive ones (`History.Lists`). The rows that are made of them are right when the
positions are the ones after the last of them (`mem_rows_of_anchored`), which is what those are
that the task reads, unless other fills have changed them since (`Settled`). Then no row is ever
wrong (`ledger_right`).
-/

namespace IntradayBot.Ledger

variable {h h' : History} {s : String} {first last bound : ℤ} {l listed : List Execution}
  {p : Positions}

/-! ## Fills by their times -/

section

variable {α : Type} {f : α → ℤ} {l : List α}

/-- What is sorted is what is before a bound, and then the rest. -/
theorem filter_lt_append_filter (hl : l.Pairwise fun a b => f a ≤ f b) (bound : ℤ) :
    (l.filter fun a => f a < bound) ++ (l.filter fun a => bound ≤ f a) = l := by
  induction l with
  | nil => rfl
  | cons a l ih =>
    obtain ⟨ha, hl⟩ := List.pairwise_cons.1 hl
    by_cases hlt : f a < bound
    · rw [List.filter_cons_of_pos (by simpa using hlt),
        List.filter_cons_of_neg (by simpa using hlt), List.cons_append, ih hl]
    · -- all of it is after the bound
      have hnone : (l.filter fun a => f a < bound) = [] :=
        List.filter_eq_nil_iff.2 fun b hb => by
          have := ha b hb
          simp only [decide_eq_true_eq]
          omega
      have hall : (l.filter fun a => bound ≤ f a) = l :=
        List.filter_eq_self.2 fun b hb => by
          have := ha b hb
          simp only [decide_eq_true_eq]
          omega
      rw [List.filter_cons_of_neg (by simpa using hlt), hnone,
        List.filter_cons_of_pos (by simpa using hlt), hall, List.nil_append]

/-- A window starts where the one before it ends. -/
theorem filter_window_append (hl : l.Pairwise fun a b => f a ≤ f b) (hle : first ≤ bound)
    (last : ℤ) :
    (l.filter fun a => first ≤ f a ∧ f a < bound) ++ (l.filter fun a => bound ≤ f a ∧ f a ≤ last) =
      l.filter fun a => first ≤ f a ∧ (f a < bound ∨ f a ≤ last) := by
  rw [← filter_lt_append_filter (hl.filter fun a => first ≤ f a ∧ (f a < bound ∨ f a ≤ last)) bound,
    List.filter_filter, List.filter_filter]
  congr 1
  · refine List.filter_congr fun a _ => ?_
    rw [Bool.eq_iff_iff]
    simp only [Bool.and_eq_true, decide_eq_true_eq]
    omega
  · refine List.filter_congr fun a _ => ?_
    rw [Bool.eq_iff_iff]
    simp only [Bool.and_eq_true, decide_eq_true_eq]
    omega

theorem filter_window_start (hl : l.Pairwise fun a b => f a ≤ f b) (first last : ℤ) :
    (l.filter fun a => first ≤ f a ∧ f a ≤ last) <+: l.filter fun a => first ≤ f a := by
  have hsplit := filter_lt_append_filter (hl.filter fun a => first ≤ f a) (last + 1)
  refine ⟨_, Eq.trans (congrArg (· ++ _) ?_) hsplit⟩
  rw [List.filter_filter]
  refine List.filter_congr fun a _ => ?_
  rw [Bool.eq_iff_iff]
  simp only [Bool.and_eq_true, decide_eq_true_eq]
  omega

end

theorem Calendar.start_le (c : Calendar) {day day' : ℤ} (hle : day ≤ day') :
    c.start day ≤ c.start day' :=
  (strictMono_int_of_lt_succ c.start_lt).monotone hle

@[simp] theorem netDelta_append (l m : List Execution) :
    netDelta (l ++ m) = netDelta l + netDelta m := by
  simp [netDelta]

theorem execTime_le_of_sortKey {a b : Execution} (h : executionSortKey a < executionSortKey b) :
    a.execTime ≤ b.execTime :=
  Prod.Lex.monotone_fst _ _ h.le

/-- The fills of a symbol, one after the other, from those before some of them on. -/
theorem symbolRows_append (p : ℚ) (l m : List Execution) :
    symbolRows p (l ++ m) = symbolRows p l ++ symbolRows (p + netDelta l) m := by
  induction l generalizing p with
  | nil => simp [symbolRows]
  | cons e l ih =>
    rw [List.cons_append, symbolRows, symbolRows, ih, netDelta_cons, List.cons_append, add_assoc]

namespace History

/-- The fills of a symbol are in their order. -/
theorem fillsOf_sorted (h : History) (s : String) :
    (h.fillsOf s).Pairwise fun a b => executionSortKey a < executionSortKey b := by
  refine (h.ordered.filter fun e => decide (e.symbol = s)).imp_of_mem fun ha hb hab => hab ?_
  rw [of_decide_eq_true (List.mem_filter.1 ha).2, of_decide_eq_true (List.mem_filter.1 hb).2]

theorem fillsOf_times (h : History) (s : String) :
    (h.fillsOf s).Pairwise fun a b => a.execTime ≤ b.execTime :=
  (h.fillsOf_sorted s).imp execTime_le_of_sortKey

theorem mem_rows_iff {row : LedgerRow} :
    row ∈ h.rows ↔ row ∈ symbolRows (h.opening row.symbol) (h.fillsOf row.symbol) := by
  rw [← filter_rows, List.mem_filter]
  simp

theorem filter_listed (h : History) (window : ℤ × ℤ) (s : String) :
    (h.listed window).filter (·.symbol = s) =
      (h.fillsOf s).filter fun e => window.1 ≤ e.execTime ∧ e.execTime ≤ window.2 := by
  rw [listed, fillsOf, List.filter_comm]

/-- The fills after those up to the last one that is listed. -/
theorem after_eq {older rest : List Execution} (hfills : h.fillsOf s = older ++ rest)
    (hin : ∀ a ∈ listed, a.symbol = s → a ∈ older)
    (hout : ∀ e ∈ older, ∃ a ∈ listed, a.symbol = s ∧ executionSortKey e ≤ executionSortKey a) :
    h.after listed s = rest := by
  have hsorted := h.fillsOf_sorted s
  rw [hfills, List.pairwise_append] at hsorted
  rw [after, hfills, List.filter_append, List.filter_eq_nil_iff.2 ?_, List.nil_append,
    List.filter_eq_self.2 ?_]
  · intro e he
    rw [decide_eq_true_iff]
    exact fun a ha hs => hsorted.2.2 a (hin a ha hs) e he
  · intro e he hall
    obtain ⟨a, ha, hs, hle⟩ := hout e he
    exact hle.not_gt (of_decide_eq_true hall a ha hs)

/-! ## Anchors -/

/-- The fills of each symbol that are listed are the first ones from a time on. -/
def Lists (h : History) (first : ℤ) (l : List Execution) : Prop :=
  ∀ s, l.filter (·.symbol = s) <+: (h.fillsOf s).filter fun e => first ≤ e.execTime

/-- The positions are those after the executions, for each of their symbols. -/
def Anchored (h : History) (p : Positions) (l : List Execution) : Prop :=
  ∀ e ∈ l, ∃ older rest,
    h.fillsOf e.symbol = older ++ l.filter (·.symbol = e.symbol) ++ rest ∧
      p.at e.symbol = h.opening e.symbol + netDelta (older ++ l.filter (·.symbol = e.symbol))

/-- With the positions after the executions, the rows are right. -/
theorem mem_rows_of_anchored (hl : h.Anchored p l) {row : LedgerRow}
    (hrow : row ∈ reconcileExecutions l p) : row ∈ h.rows := by
  obtain ⟨older, rest, hfills, hp⟩ := hl _ (toExecution_mem hrow)
  have hmem : row ∈ (reconcileExecutions l p).filter (·.symbol = row.symbol) :=
    List.mem_filter.2 ⟨hrow, by simp⟩
  have hsorted : (l.filter (·.symbol = row.symbol)).Pairwise
      fun a b => executionSortKey a ≤ executionSortKey b := by
    refine ((h.fillsOf_sorted row.symbol).sublist ?_).imp le_of_lt
    rw [hfills]
    exact (List.sublist_append_right ..).trans (List.sublist_append_left ..)
  -- the walk backward gives what these fills of the symbol did
  have hrows := h.filter_rows row.symbol
  rw [hfills, symbolRows_append, symbolRows_append] at hrows
  rw [filter_reconcileExecutions, sortBy_of_sorted hsorted, hp, netDelta_append, ← add_assoc,
    reconcileSymbol_symbolRows] at hmem
  · have hall : row ∈ h.rows.filter (·.symbol = row.symbol) := by
      rw [hrows]
      exact List.mem_append_left _ (List.mem_append_right _ hmem)
    exact (List.mem_filter.1 hall).1
  · intro row' hrow'
    have hall : row' ∈ h.rows.filter (·.symbol = row.symbol) := by
      rw [hrows]
      exact List.mem_append_left _ (List.mem_append_right _ hrow')
    exact h.closed row' (List.mem_filter.1 hall).1

/-- The fills of a symbol that is listed: the ones before a time, those that are listed, and the
    others. -/
theorem Lists.split (hl : h.Lists first l) (s : String) : ∃ rest,
    h.fillsOf s = ((h.fillsOf s).filter fun e => e.execTime < first) ++
      l.filter (·.symbol = s) ++ rest := by
  obtain ⟨rest, hrest⟩ := hl s
  refine ⟨rest, ?_⟩
  rw [List.append_assoc, hrest]
  exact (filter_lt_append_filter (h.fillsOf_times s) first).symm

/-- The fills of a symbol that come after those that are listed. -/
theorem after_eq_of_split {e : Execution} (he : e ∈ l) {rest : List Execution}
    (hfills : h.fillsOf e.symbol = ((h.fillsOf e.symbol).filter fun e => e.execTime < first) ++
      l.filter (·.symbol = e.symbol) ++ rest) : h.after l e.symbol = rest := by
  have hmem : e ∈ l.filter (·.symbol = e.symbol) := List.mem_filter.2 ⟨he, by simp⟩
  refine after_eq hfills (fun a ha hs => ?_) fun x hx => ?_
  · exact List.mem_append_right _ (List.mem_filter.2 ⟨ha, by simpa using hs⟩)
  · rcases List.mem_append.1 hx with hx | hx
    · -- it is before all that are listed
      refine ⟨e, he, rfl, ?_⟩
      have hsorted := h.fillsOf_sorted e.symbol
      rw [hfills, List.append_assoc, List.pairwise_append] at hsorted
      exact (hsorted.2.2 x hx e (List.mem_append_left _ hmem)).le
    · have hx := List.mem_filter.1 hx
      exact ⟨x, hx.1, of_decide_eq_true hx.2, le_rfl⟩

/-- The positions that are shown are those after the executions that are listed, when the fills
    since then net to zero. -/
theorem Lists.anchored (hl : h.Lists first l) (hp : ∀ s, p.at s = h.final s)
    (hnet : ∀ e ∈ l, netDelta (h.after l e.symbol) = 0) : h.Anchored p l := by
  intro e he
  obtain ⟨rest, hfills⟩ := hl.split e.symbol
  refine ⟨_, rest, hfills, ?_⟩
  have hnet := hnet e he
  rw [after_eq_of_split he hfills] at hnet
  rw [hp, final]
  conv_lhs => rw [hfills, netDelta_append, hnet, add_zero]

theorem mem_symbolRows {q : ℚ} {row : LedgerRow} (hrow : row ∈ symbolRows q l) :
    ∃ a b, l = a ++ row.toExecution :: b ∧
      row.positionAfter = q + netDelta (a ++ [row.toExecution]) := by
  induction l generalizing q with
  | nil => cases hrow
  | cons e l ih =>
    rcases List.mem_cons.1 hrow with rfl | hrow
    · refine ⟨[], l, rfl, ?_⟩
      rw [List.nil_append, netDelta_cons, netDelta_nil, add_zero]
      rfl
    · obtain ⟨a, b, rfl, hafter⟩ := ih hrow
      refine ⟨e :: a, b, rfl, ?_⟩
      rw [hafter, List.cons_append, netDelta_cons, add_assoc]

/-- Otherwise, some row is wrong. -/
theorem Lists.right_iff (hl : h.Lists first l) (hp : ∀ s, p.at s = h.final s) :
    (∀ row ∈ reconcileExecutions l p, row ∈ h.rows) ↔
      ∀ e ∈ l, netDelta (h.after l e.symbol) = 0 := by
  refine ⟨fun hright e he => ?_, fun hnet row => mem_rows_of_anchored (hl.anchored hp hnet)⟩
  obtain ⟨rest, hfills⟩ := hl.split e.symbol
  have hmem : e ∈ l.filter (·.symbol = e.symbol) := List.mem_filter.2 ⟨he, by simp⟩
  rw [after_eq_of_split he hfills]
  -- the last one that is listed of the symbol
  obtain ⟨front, x, hlast⟩ :=
    (List.eq_nil_or_concat' (l.filter (·.symbol = e.symbol))).resolve_left (List.ne_nil_of_mem hmem)
  have hx : x ∈ l.filter (·.symbol = e.symbol) := by
    rw [hlast]
    exact List.mem_append_right _ List.mem_cons_self
  have hs : x.symbol = e.symbol := of_decide_eq_true (List.mem_filter.1 hx).2
  have hsorted := h.fillsOf_sorted e.symbol
  have hfront : (l.filter (·.symbol = e.symbol)).Pairwise
      fun a b => executionSortKey a ≤ executionSortKey b := by
    rw [hfills] at hsorted
    refine (hsorted.sublist ?_).imp le_of_lt
    exact (List.sublist_append_right ..).trans (List.sublist_append_left ..)
  have hrow : reconcileExecution x (p.at e.symbol) ∈ reconcileExecutions l p := by
    have hin : reconcileExecution x (p.at e.symbol) ∈
        (reconcileExecutions l p).filter (·.symbol = e.symbol) := by
      rw [filter_reconcileExecutions, sortBy_of_sorted hfront, hlast, reconcileSymbol_append]
      exact List.mem_append_right _ List.mem_cons_self
    exact (List.mem_filter.1 hin).1
  have hright := mem_rows_iff.1 (hright _ hrow)
  change _ ∈ symbolRows (h.opening x.symbol) (h.fillsOf x.symbol) at hright
  rw [hs] at hright
  -- it has one place among the fills of the symbol
  obtain ⟨a, b, hab, hafter⟩ := mem_symbolRows hright
  change h.fillsOf e.symbol = a ++ x :: b at hab
  change p.at e.symbol = h.opening e.symbol + netDelta (a ++ [x]) at hafter
  have hnot : x ∉ a ∧ x ∉ b := by
    rw [hab, List.pairwise_append, List.pairwise_cons] at hsorted
    refine ⟨fun hx => ?_, fun hx => ?_⟩
    · exact lt_irrefl _ (hsorted.2.2 x hx x List.mem_cons_self)
    · exact lt_irrefl _ (hsorted.2.1.1 x hx)
  rw [hlast, List.append_assoc, List.append_assoc, ← List.append_assoc, List.singleton_append]
    at hfills
  have hsplit := hab.symm.trans hfills
  rw [List.append_cons_inj_of_notMem hnot.1 hnot.2] at hsplit
  have htotal : netDelta (h.fillsOf e.symbol) = netDelta (a ++ [x]) + netDelta b := by
    rw [hab, List.append_cons, netDelta_append]
  rw [hp, final, htotal, ← add_assoc, add_eq_left] at hafter
  rw [← hsplit.2.2]
  exact hafter

/-- The positions before a time. -/
def before (h : History) (time : ℤ) (s : String) : ℚ :=
  h.opening s + netDelta ((h.fillsOf s).filter fun e => e.execTime < time)

/-- What is listed up to a time is anchored at the positions before it. -/
theorem anchored_listed
    (hp : ∀ e ∈ h.listed (first, last), p.at e.symbol = h.before (last + 1) e.symbol) :
    h.Anchored p (h.listed (first, last)) := by
  intro e he
  have htimes := h.fillsOf_times e.symbol
  -- The fills before the window and those in it are all fills up to its end.
  have hwindow : ((h.fillsOf e.symbol).filter fun e => e.execTime < first) ++
      (h.listed (first, last)).filter (·.symbol = e.symbol) =
        (h.fillsOf e.symbol).filter fun e => e.execTime < last + 1 := by
    have hle : first ≤ last := by
      have hin := of_decide_eq_true (List.mem_filter.1 he).2
      exact hin.1.trans hin.2
    rw [filter_listed, ← filter_lt_append_filter
      (htimes.filter fun e => e.execTime < last + 1) first, List.filter_filter, List.filter_filter]
    congr 1
    · refine List.filter_congr fun a _ => ?_
      rw [Bool.eq_iff_iff]
      simp only [Bool.and_eq_true, decide_eq_true_eq]
      omega
    · refine List.filter_congr fun a _ => ?_
      rw [Bool.eq_iff_iff]
      simp only [Bool.and_eq_true, decide_eq_true_eq]
      omega
  refine ⟨(h.fillsOf e.symbol).filter fun e => e.execTime < first,
    (h.fillsOf e.symbol).filter fun e => last + 1 ≤ e.execTime, ?_, ?_⟩
  · rw [hwindow]
    exact (filter_lt_append_filter htimes _).symm
  · rw [hp e he, hwindow]
    rfl

/-- The positions before the current day, for the symbols of the day before. -/
theorem Lists.opening (hl : h.Lists bound l) (hp : ∀ s, p.at s = h.final s)
    (hnet : ∀ e ∈ h.listed (first, bound - 1),
      netDelta (h.after (h.listed (first, bound - 1) ++ l) e.symbol) = 0) :
    ∀ e ∈ h.listed (first, bound - 1),
      (openingPositionSnapshot l p).at e.symbol = h.before bound e.symbol := by
  intro e he
  obtain ⟨rest, hfills⟩ := hl.split e.symbol
  have hin : ∀ {x}, x ∈ h.listed (first, bound - 1) → first ≤ x.execTime ∧ x.execTime ≤ bound - 1 :=
    fun hx => of_decide_eq_true (List.mem_filter.1 hx).2
  have hafter : h.after (h.listed (first, bound - 1) ++ l) e.symbol = rest := by
    refine after_eq hfills (fun a ha hs => ?_) fun x hx => ?_
    · rcases List.mem_append.1 ha with ha | ha
      · refine List.mem_append_left _ (List.mem_filter.2 ⟨List.mem_filter.2 ⟨?_, ?_⟩, ?_⟩)
        · exact (List.mem_filter.1 ha).1
        · exact decide_eq_true hs
        · have := hin ha
          rw [decide_eq_true_iff]
          omega
      · exact List.mem_append_right _ (List.mem_filter.2 ⟨ha, decide_eq_true hs⟩)
    · rcases List.mem_append.1 hx with hx | hx
      · obtain ⟨hxs, hxt⟩ := List.mem_filter.1 hx
        obtain ⟨hxf, hxs⟩ := List.mem_filter.1 hxs
        rw [decide_eq_true_iff] at hxs hxt
        by_cases hfirst : first ≤ x.execTime
        · refine ⟨x, List.mem_append_left _ (List.mem_filter.2 ⟨hxf, ?_⟩), hxs, le_rfl⟩
          rw [decide_eq_true_iff]
          omega
        · -- it is before the day before
          refine ⟨e, List.mem_append_left _ he, rfl, le_of_not_gt fun hlt => ?_⟩
          have hle := execTime_le_of_sortKey hlt
          have := (hin he).1
          omega
      · have hx := List.mem_filter.1 hx
        exact ⟨x, List.mem_append_right _ hx.1, of_decide_eq_true hx.2, le_rfl⟩
  have hnet := hnet e he
  rw [hafter] at hnet
  rw [at_openingPositionSnapshot, hp, final, before]
  conv_lhs => rw [hfills, netDelta_append, netDelta_append, hnet, add_zero, ← add_assoc]
  exact add_sub_cancel_right _ _

/-! ## Later histories -/

/-- The history, with one more fill. -/
structure Grows (h : History) (e : Execution) (h' : History) : Prop where
  opening : h'.opening = h.opening
  fills : h'.fills = h.fills ++ [e]

namespace Grows

variable {e : Execution}

theorem fillsOf_eq (hg : h.Grows e h') (s : String) :
    h'.fillsOf s = h.fillsOf s ++ [e].filter (·.symbol = s) := by
  rw [fillsOf, hg.fills, List.filter_append]
  rfl

theorem filter_fillsOf (hg : h.Grows e h') (q : Execution → Bool) (he : q e = false) (s : String) :
    (h'.fillsOf s).filter q = (h.fillsOf s).filter q := by
  have hnil : ([e].filter (·.symbol = s)).filter q = [] := by
    refine List.filter_eq_nil_iff.2 fun x hx => ?_
    rw [List.mem_singleton.1 (List.mem_filter.1 hx).1, he]
    exact Bool.false_ne_true
  rw [hg.fillsOf_eq, List.filter_append, hnil, List.append_nil]

theorem lists (hg : h.Grows e h') (hl : h.Lists first l) : h'.Lists first l := by
  intro s
  rw [hg.fillsOf_eq, List.filter_append]
  exact (hl s).trans (List.prefix_append ..)

theorem listed_eq (hg : h.Grows e h') (he : last < e.execTime) :
    h'.listed (first, last) = h.listed (first, last) := by
  have hout : decide (first ≤ e.execTime ∧ e.execTime ≤ last) = false := by
    rw [decide_eq_false_iff_not]
    omega
  rw [listed, listed, hg.fills, List.filter_append, List.filter_singleton]
  simp only [hout]
  exact List.append_nil _

theorem before_eq (hg : h.Grows e h') (he : bound ≤ e.execTime) (s : String) :
    h'.before bound s = h.before bound s := by
  rw [before, before, hg.opening, hg.filter_fillsOf]
  rw [decide_eq_false_iff_not]
  omega

theorem mem_rows (hg : h.Grows e h') {row : LedgerRow} (hrow : row ∈ h.rows) : row ∈ h'.rows := by
  rw [mem_rows_iff] at hrow ⊢
  rw [hg.opening, hg.fillsOf_eq, symbolRows_append]
  exact List.mem_append_left _ hrow

end Grows

end History

/-! ## Tasks -/

/-- What a task has read is true of the history, at a time. -/
def Task.Fine (c : Calendar) (h : History) (now : ℤ) : Task → Prop
  | .executions _ _ _ cutoffMs => cutoffMs ≤ now
  | .compare dates _ _ cutoffMs listed =>
    c.start dates.current ≤ cutoffMs ∧ cutoffMs ≤ now ∧ h.Lists (c.start dates.current) listed
  | .previous current cutoffMs opening =>
    c.start current ≤ cutoffMs ∧ cutoffMs ≤ now ∧
      ∀ e ∈ h.listed (c.start (current - 1), c.start current - 1),
        opening.at e.symbol = h.before (c.start current) e.symbol
  | .backfill current days => c.start current ≤ now ∧ 1 ≤ days
  | .pages nowMs day left combined =>
    nowMs ≤ now ∧ c.start (day + left) ≤ nowMs ∧ ∃ first, first ≤ c.start day ∧ ∀ s,
      combined.filter (·.symbol = s) = (h.fillsOf s).filter fun e =>
        first ≤ e.execTime ∧ e.execTime < c.start day
  | .positions combined => ∃ first, h.Lists first combined
  | .persist rows => ∀ row ∈ rows, row ∈ h.rows
  | .idle | .snapshot .. | .cutoff .. => True

namespace Task.Fine

variable {c : Calendar} {now time : ℤ} {task task' : Task}

/-- A fill does not change what was read. -/
theorem fill (hf : task.Fine c h now) {e : Execution} (he : e.execTime = now) (hg : h.Grows e h') :
    task.Fine c h' now := by
  -- A new fill is later than every time the tasks ask about.
  cases task with
  | executions _ _ _ cutoffMs => exact hf
  | compare dates _ _ cutoffMs listed =>
    obtain ⟨hstart, hcutoff, hlists⟩ := hf
    exact ⟨hstart, hcutoff, hg.lists hlists⟩
  | previous current cutoffMs opening =>
    obtain ⟨hstart, hcutoff, hopening⟩ := hf
    refine ⟨hstart, hcutoff, ?_⟩
    rw [hg.listed_eq (by omega)]
    intro x hx
    rw [hopening x hx, hg.before_eq (by omega)]
  | backfill current days => exact hf
  | pages nowMs day left combined =>
    obtain ⟨hnow, hstart, first, hfirst, hcombined⟩ := hf
    refine ⟨hnow, hstart, first, hfirst, fun s => ?_⟩
    have hday : c.start day ≤ c.start (day + left) := c.start_le (by omega)
    rw [hcombined, hg.filter_fillsOf]
    rw [decide_eq_false_iff_not]
    omega
  | positions combined =>
    obtain ⟨first, hlists⟩ := hf
    exact ⟨first, hg.lists hlists⟩
  | persist rows => exact fun row hrow => hg.mem_rows (hf row hrow)
  | idle => trivial
  | snapshot _ _ => trivial
  | cutoff _ _ _ => trivial

theorem tick (hf : task.Fine c h now) (hle : now ≤ time) : task.Fine c h time := by
  cases task with
  | executions _ _ _ cutoffMs => exact le_trans hf hle
  | compare dates _ _ cutoffMs listed =>
    obtain ⟨hstart, hcutoff, hlists⟩ := hf
    exact ⟨hstart, hcutoff.trans hle, hlists⟩
  | previous current cutoffMs opening =>
    obtain ⟨hstart, hcutoff, hopening⟩ := hf
    exact ⟨hstart, hcutoff.trans hle, hopening⟩
  | backfill current days => exact ⟨hf.1.trans hle, hf.2⟩
  | pages nowMs day left combined =>
    obtain ⟨hnow, hrest⟩ := hf
    exact ⟨hnow.trans hle, hrest⟩
  | positions combined => exact hf
  | persist rows => exact hf
  | idle => trivial
  | snapshot _ _ => trivial
  | cutoff _ _ _ => trivial

theorem starts (hs : task.Starts c now) : task.Fine c h now := by
  cases hs with
  | sync dates hcurrent => trivial
  | backfill current days hcurrent hdays _ => exact ⟨hcurrent.1, hdays⟩

/-- The clock is read. -/
theorem clock (hf : task.Fine c h now) (ht : task.onClock now = some task') :
    task'.Fine c h now := by
  cases task with
  | cutoff dates attempts before =>
    obtain rfl := Option.some.inj ht
    exact le_rfl
  | backfill current days =>
    obtain rfl := Option.some.inj ht
    obtain ⟨hstart, hdays⟩ := hf
    refine ⟨le_rfl, ?_, c.start (current - (days - 1)), le_rfl, fun s => ?_⟩
    · have hlast : current - ((days : ℤ) - 1) + ((days - 1 : ℕ) : ℤ) = current := by omega
      rw [hlast]
      exact hstart
    · refine (List.filter_eq_nil_iff.2 fun e _ => ?_).symm
      rw [decide_eq_true_iff]
      omega
  | _ => cases ht

/-- The window of a day that is over, or of the one that is not. -/
theorem window_eq {day : ℤ} {window : ℤ × ℤ} (hw : c.window day now = some window) :
    c.start day ≤ now ∧ window = (c.start day, min now (c.start (day + 1) - 1)) := by
  rw [Calendar.window] at hw
  obtain ⟨hle, hw⟩ := Option.ite_none_left_eq_some.1 hw
  exact ⟨not_lt.1 hle, (Option.some.inj hw).symm⟩

/-- Executions are listed. -/
theorem executions (hf : task.Fine c h now) (ht : task.onExecutions c h = some task') :
    task'.Fine c h now := by
  cases task with
  | executions dates attempts before cutoffMs =>
    obtain rfl := Option.some.inj ht
    rcases hw : c.window dates.current cutoffMs with _ | window
    · trivial
    · obtain ⟨hstart, rfl⟩ := window_eq hw
      refine ⟨hstart, hf, fun s => ?_⟩
      rw [History.filter_listed]
      exact filter_window_start (h.fillsOf_times s) _ _
  | previous current cutoffMs opening =>
    obtain rfl := Option.some.inj ht
    obtain ⟨hstart, -, hopening⟩ := hf
    rcases hw : c.window (current - 1) cutoffMs with _ | window
    · trivial
    · obtain ⟨-, rfl⟩ := window_eq hw
      have hlast : min cutoffMs (c.start (current - 1 + 1) - 1) = c.start current - 1 := by
        rw [sub_add_cancel]
        omega
      rw [hlast]
      refine fun row hrow => History.mem_rows_of_anchored (History.anchored_listed ?_) hrow
      rw [sub_add_cancel]
      exact hopening
  | pages nowMs day left combined =>
    obtain rfl := Option.some.inj ht
    obtain ⟨hnow, hstart, first, hfirst, hcombined⟩ := hf
    rcases hw : c.window day nowMs with _ | window
    · trivial
    obtain ⟨-, rfl⟩ := window_eq hw
    have hnext : c.start day < c.start (day + 1) := c.start_lt day
    have hall : ∀ s, (combined ++ h.listed (c.start day, min nowMs (c.start (day + 1) - 1))).filter
        (·.symbol = s) = (h.fillsOf s).filter fun e => first ≤ e.execTime ∧
          (e.execTime < c.start day ∨ e.execTime ≤ min nowMs (c.start (day + 1) - 1)) := by
      intro s
      rw [List.filter_append, hcombined, History.filter_listed]
      exact filter_window_append (h.fillsOf_times s) hfirst _
    cases left with
    | zero =>
      -- the last day, up to the cutoff
      refine ⟨first, fun s => ?_⟩
      rw [hall]
      have hstart : c.start day ≤ nowMs := by simpa using hstart
      refine Eq.subst (motive := (· <+: _)) ?_ (filter_window_start (h.fillsOf_times s) first
        (min nowMs (c.start (day + 1) - 1)))
      refine List.filter_congr fun e _ => ?_
      rw [decide_eq_decide]
      omega
    | succ left =>
      have hday : c.start (day + 1) ≤ nowMs := by
        refine le_trans (c.start_le ?_) hstart
        push_cast
        omega
      refine ⟨hnow, ?_, first, by omega, fun s => ?_⟩
      · rw [show day + 1 + (left : ℤ) = day + ((left + 1 : ℕ) : ℤ) by omega]
        exact hstart
      · rw [hall]
        refine List.filter_congr fun e _ => ?_
        rw [decide_eq_decide]
        omega
  | _ => cases ht

/-- Positions are read, and the fills that are not listed net to zero. -/
theorem positions (hf : task.Fine c h now) (hp : ∀ s, p.at s = h.final s)
    (ht : task.onPositions p = some task')
    (hnet : ∀ executions later, task.reconciles c h p = some (executions, later) →
      ∀ e ∈ executions, netDelta (h.after (executions ++ later) e.symbol) = 0) :
    task'.Fine c h now := by
  cases task with
  | snapshot dates attempts =>
    obtain rfl := Option.some.inj ht
    trivial
  | compare dates attempts before cutoffMs listed =>
    obtain ⟨hstart, hcutoff, hlists⟩ := hf
    simp only [onPositions] at ht
    simp only [reconciles] at hnet
    split at ht
    · rename_i hsame
      rw [if_pos hsame] at hnet
      split at ht
      · -- the current day
        rename_i hcurrent
        obtain rfl := Option.some.inj ht
        rw [if_pos hcurrent] at hnet
        refine fun row hrow => History.mem_rows_of_anchored (hlists.anchored hp ?_) hrow
        intro e he
        rw [← List.append_nil listed]
        exact hnet listed [] rfl e he
      · -- the day before
        rename_i hcurrent
        obtain rfl := Option.some.inj ht
        rw [if_neg hcurrent] at hnet
        have hprev : c.start (dates.current - 1) < c.start dates.current := by
          have := c.start_lt (dates.current - 1)
          rwa [sub_add_cancel] at this
        have hwindow : c.window (dates.current - 1) cutoffMs =
            some (c.start (dates.current - 1), c.start dates.current - 1) := by
          rw [Calendar.window, if_neg (by omega), sub_add_cancel, min_eq_right (by omega)]
        rw [hwindow] at hnet
        exact ⟨hstart, hcutoff, hlists.opening hp (hnet _ _ rfl)⟩
    · split at ht
      · obtain rfl := Option.some.inj ht
        trivial
      · obtain rfl := Option.some.inj ht
        trivial
  | positions combined =>
    obtain rfl := Option.some.inj ht
    obtain ⟨first, hlists⟩ := hf
    refine fun row hrow => History.mem_rows_of_anchored (hlists.anchored hp ?_) hrow
    intro e he
    rw [← List.append_nil combined]
    exact hnet combined [] rfl e he
  | _ => cases ht

end Task.Fine

/-! ## Runs -/

variable {ι : Type} [DecidableEq ι] {c : Calendar} {w w' : World ι} {label : Label ι}

theorem values_persist {ledger : OrdMap String LedgerRow} {rows : List LedgerRow} {row : LedgerRow}
    (hrow : row ∈ (persist ledger rows).values) : row ∈ ledger.values ∨ row ∈ rows := by
  induction rows generalizing ledger with
  | nil => exact .inl hrow
  | cons row' rows ih =>
    have hlater : row ∈ (ledger.set row'.execId row').values ∨ row ∈ rows := ih hrow
    rcases hlater with hset | hrows
    · obtain ⟨id, hget⟩ := OrdMap.mem_values.1 hset
      rw [OrdMap.get?_set] at hget
      split at hget
      · obtain rfl := Option.some.inj hget
        exact .inr List.mem_cons_self
      · exact .inl (OrdMap.mem_values.2 ⟨id, hget⟩)
    · exact .inr (List.mem_cons_of_mem _ hrows)

/-- What is kept: the rows are right, and so is what the tasks have read. -/
structure World.Fine (c : Calendar) (w : World ι) : Prop where
  right : w.Right
  tasks : ∀ i, (w.tasks i).Fine c w.history w.clock

namespace World.Fine

theorem goOn {i : ι} {task : Task} (hw : w.Fine c) (ht : task.Fine c w.history w.clock) :
    (w.goOn i task).Fine c := by
  refine ⟨hw.right, fun j => ?_⟩
  change (Function.update w.tasks i task j).Fine c w.history w.clock
  rw [Function.update_apply]
  split
  · exact ht
  · exact hw.tasks j

theorem step (hw : w.Fine c) (hs : Step c w label w') (hok : Settled c w label) : w'.Fine c := by
  cases hs with
  | fill e history htime hopening hfills =>
    have hg : w.history.Grows e history := ⟨hopening, hfills⟩
    exact ⟨fun row hrow => hg.mem_rows (hw.right row hrow), fun i => (hw.tasks i).fill htime hg⟩
  | tick time hle => exact ⟨hw.right, fun i => (hw.tasks i).tick hle⟩
  | start i task _ hstarts => exact hw.goOn (.starts hstarts)
  | positions i p task hp ht => exact hw.goOn ((hw.tasks i).positions hp ht hok)
  | clock i task ht => exact hw.goOn ((hw.tasks i).clock ht)
  | executions i task ht => exact hw.goOn ((hw.tasks i).executions ht)
  | persist i rows ht =>
    have hrows : ∀ row ∈ rows, row ∈ w.history.rows := by
      have := hw.tasks i
      rwa [ht] at this
    have hidle : (w.goOn i .idle).Fine c := hw.goOn trivial
    refine ⟨fun row hrow => ?_, hidle.tasks⟩
    rcases values_persist hrow with hrow | hrow
    · exact hw.right row hrow
    · exact hrows row hrow
  | fail i => exact hw.goOn trivial

end World.Fine

/-- Where the fills that are not listed net to zero whenever positions are read to reconcile from,
    no row of the ledger is ever wrong. -/
theorem ledger_right {w₀ : World ι} (h₀ : w₀.Fresh) (hr : Run c (Settled c) w₀ w) : w.Right := by
  suffices hfine : w.Fine c from hfine.right
  induction hr with
  | refl =>
    refine ⟨fun row hrow => ?_, fun i => ?_⟩
    · obtain ⟨_, hget⟩ := OrdMap.mem_values.1 hrow
      rw [h₀.ledger] at hget
      cases hget
    · rw [h₀.tasks]
      trivial
  | step _ hs hok ih => exact ih.step hs hok

/-- Trading days of 24 hours. -/
def plainDays : Calendar := ⟨fun day => day * 86400000, fun day => by omega⟩

/-- A contract is bought, then it is sold, and bought again. -/
def roundTrip (n : ℕ) : History where
  opening _ := 0
  fills := [plainFill "a" "BTCUSDT" .buy 1 0, plainFill "b" "BTCUSDT" .sell 3 0,
    plainFill "c" "BTCUSDT" .buy 4 0].take n
  ordered := by
    refine List.Pairwise.sublist (List.take_sublist ..) ?_
    decide +kernel
  closed := by
    rcases n with _ | _ | _ | n
    · decide +kernel
    · decide +kernel
    · decide +kernel
    · rw [List.take_of_length_le (by simp)]
      decide +kernel

/-- The positions that it leads to. -/
def shownPositions (n : ℕ) : Positions :=
  (OrdMap.empty.set "BTCUSDT" ((roundTrip n).final "BTCUSDT")).filterValues fun value => value ≠ 0

theorem at_shownPositions (n : ℕ) (s : String) :
    (shownPositions n).at s = (roundTrip n).final s := by
  rw [shownPositions, at_filterValues, at_set]
  split
  · rename_i hs
    rw [hs]
  · rename_i hs
    have hnone : (roundTrip n).fillsOf s = [] := by
      refine List.filter_eq_nil_iff.2 fun e he => ?_
      have hmem := List.mem_of_mem_take he
      simp only [List.mem_cons, List.not_mem_nil, or_false] at hmem
      rcases hmem with rfl | rfl | rfl <;> simp [plainFill, Ne.symm hs]
    rw [History.final, hnone, netDelta_nil, add_zero]
    rfl

/-- Nothing has happened yet. -/
def quietWorld : World Unit := ⟨roundTrip 0, 1, ∅, fun _ => .idle⟩

/-- The dates of a sync of the first day. -/
def firstDay : SyncDates := ⟨0, 0, .inl rfl⟩

theorem onExecutions_executions {c : Calendar} {h : History} {dates : SyncDates} {attempts : ℕ}
    {before : Positions} {cutoffMs : ℤ} (window : ℤ × ℤ)
    (hw : c.window dates.current cutoffMs = some window) :
    (Task.executions dates attempts before cutoffMs).onExecutions c h =
      some (.compare dates attempts before cutoffMs (h.listed window)) := by
  simp only [Task.onExecutions, hw]

section

variable {before : Positions} {attempts : ℕ} {cutoffMs : ℤ}

theorem onPositions_compare (hs : before.same p) :
    (Task.compare firstDay attempts before cutoffMs listed).onPositions p =
      some (.persist (reconcileExecutions listed p)) := by
  rw [Task.onPositions, if_pos hs]
  rfl

theorem reconciles_compare (hs : before.same p) :
    (Task.compare firstDay attempts before cutoffMs listed).reconciles plainDays h p =
      some (listed, []) := by
  rw [Task.reconciles, if_pos hs]
  rfl

end

/-- The contract is bought, and a sync reads the positions and the execution; it is sold and bought
    again, and the sync reads the positions once more. -/
theorem ledger_right_rebought : ∃ w : World Unit, quietWorld.Fresh ∧
    Run plainDays (Settled plainDays) quietWorld w ∧ w.history = roundTrip 3 ∧
    w.ledger.values.map (·.action) = [.entry] ∧ w.Right := by
  have hsame : (shownPositions 1).same (shownPositions 3) := by decide +kernel
  have hwindow : plainDays.window 0 1 = some (0, 1) := by decide +kernel
  have h₁ : Run plainDays (Settled plainDays) quietWorld { quietWorld with history := roundTrip 1 } :=
    .step .refl (.fill (plainFill "a" "BTCUSDT" .buy 1 0) _ rfl rfl rfl) trivial
  have h₂ := h₁.step (.start () _ rfl (.sync firstDay ⟨by decide, by decide⟩)) trivial
  have h₃ := h₂.step (.positions () (shownPositions 1) _ (at_shownPositions 1) rfl) fun _ _ h => by
    cases h
  have h₄ := h₃.step (.clock () _ rfl) trivial
  have h₅ := h₄.step (.executions () _ (onExecutions_executions (0, 1) hwindow)) trivial
  have h₆ := h₅.step (.tick 3 (by decide)) trivial
  have h₇ := h₆.step (.fill (plainFill "b" "BTCUSDT" .sell 3 0) (roundTrip 2) rfl rfl rfl) trivial
  have h₈ := h₇.step (.tick 4 (by decide)) trivial
  have h₉ := h₈.step (.fill (plainFill "c" "BTCUSDT" .buy 4 0) (roundTrip 3) rfl rfl rfl) trivial
  have h₁₀ := h₉.step (.positions () (shownPositions 3) _ (at_shownPositions 3)
    (onPositions_compare hsame)) fun _ _ h => by
      obtain ⟨rfl, rfl⟩ := Prod.mk.inj (Option.some.inj ((reconciles_compare hsame).symm.trans h))
      decide +kernel
  have h₁₁ := h₁₀.step (.persist () _ rfl) trivial
  exact ⟨_, ⟨rfl, fun _ => rfl⟩, h₁₁, rfl, by decide +kernel, ledger_right ⟨rfl, fun _ => rfl⟩ h₁₁⟩

/-- The contract is bought after the first read of the positions, and it is sold after the
    cutoff: the positions are the same again, and the row says that the fill has closed a
    position. -/
theorem ledger_not_right : ¬ ∀ (c : Calendar) (w₀ w : World Unit), w₀.Fresh →
    Run c (fun _ _ => True) w₀ w → w.Right := by
  have hsame : (shownPositions 0).same (shownPositions 2) := by decide +kernel
  have hwindow : plainDays.window 0 1 = some (0, 1) := by decide +kernel
  have h₁ : Run plainDays (fun _ _ => True) quietWorld (quietWorld.goOn () (.snapshot firstDay 0)) :=
    .step .refl (.start () _ rfl (.sync firstDay ⟨by decide, by decide⟩)) trivial
  have h₂ := h₁.step (.positions () (shownPositions 0) _ (at_shownPositions 0) rfl) trivial
  have h₃ := h₂.step (.fill (plainFill "a" "BTCUSDT" .buy 1 0) (roundTrip 1) rfl rfl rfl) trivial
  have h₄ := h₃.step (.clock () _ rfl) trivial
  have h₅ := h₄.step (.executions () _ (onExecutions_executions (0, 1) hwindow)) trivial
  have h₆ := h₅.step (.tick 3 (by decide)) trivial
  have h₇ := h₆.step (.fill (plainFill "b" "BTCUSDT" .sell 3 0) (roundTrip 2) rfl rfl rfl) trivial
  have h₈ := h₇.step (.positions () (shownPositions 2) _ (at_shownPositions 2)
    (onPositions_compare hsame)) trivial
  have h₉ := h₈.step (.persist () _ rfl) trivial
  intro hright
  have hw := hright _ _ _ ⟨rfl, fun _ => rfl⟩ h₉
  revert hw
  change ¬ ∀ row ∈ _, row ∈ _
  decide +kernel

end IntradayBot.Ledger
