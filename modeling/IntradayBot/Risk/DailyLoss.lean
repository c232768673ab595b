import Mathlib.Algebra.BigOperators.Group.List.Basic
import Mathlib.Algebra.BigOperators.Ring.List
import IntradayBot.Risk.ClosedPnl

/-!
# The daily loss cap

`evaluate` blocks new entries when the loss of the day reaches the cap. It knows the loss from
the rows that `installedDailyClosedPnl` counts. The rows of the day that it leaves out
(`TradingDay.leftOut`) are all of them when the journal has no order of the day, as when another
process trades; the rows after the first page; those that no order of the journal opened; and,
in the fallback, repeated ids and the rows after the first 500. The others are added up as doubles,
which is a little off (`TradingDay.rounding`).

The cap is sound if and only if the day reaches it without these rows and with what the rounding
adds (`daily_cap_iff`).
-/

namespace IntradayBot.Risk

/-- `_number(value)`, of a value as `float` reads it. -/
def number : Field ℚ → ℚ
  | .value q => q
  | _ => 0

/-- `round(value, 8)` -/
def round8 (q : ℚ) : ℚ := Double.round (Decimal.roundHalfEven (q * 10 ^ 8) / 10 ^ 8)

inductive LockType
  | dailyNetLoss
  | pnlTruthUnavailable
  deriving DecidableEq

/-- The policy that `evaluate` returns, beside the counters of the trades. -/
structure Policy where
  ok : Bool
  blocked : Bool
  reason : String
  lockType : Option LockType
  dailyLossLimitEnabled : Bool
  dailyLossCapUsdt : ℚ
  realizedNetPnl : Option ℚ
  lossUsed : Option ℚ
  remainingLossCapacity : Option ℚ
  pnlMessage : String

/-- `evaluate(core, state)` -/
def evaluate (startEpoch : ℤ) (journal : List JournalEntry) (answers : Answers)
    (dailyLossCapUsdt : Field ℚ) : Policy :=
  let cap := max 0 (number dailyLossCapUsdt)
  let (closedPnl, pnlMessage) := match installedDailyClosedPnl startEpoch journal answers with
    | .ok result => result
    | .error error => (none, error)
  match closedPnl with
  | none =>
    { ok := false
      blocked := true
      reason := "Daily PnL truth unavailable; new entries blocked: " ++ pnlMessage
      lockType := some .pnlTruthUnavailable
      dailyLossLimitEnabled := 0 < cap
      dailyLossCapUsdt := cap
      realizedNetPnl := none
      lossUsed := none
      remainingLossCapacity := none
      pnlMessage := if pnlMessage = "" then "OK" else pnlMessage }
  | some realizedNet =>
    let lossUsed := |min 0 realizedNet|
    let remaining := if 0 < cap then some (max 0 (Double.round (cap - lossUsed))) else none
    let blocked : Bool := 0 < cap ∧ cap ≤ lossUsed
    { ok := true
      blocked := blocked
      reason :=
        if blocked then
          "Daily net-loss limit reached (" ++ fixed 4 lossUsed ++ "/" ++ fixed 4 cap ++ " USDT)"
        else
          match remaining with
          | some remaining =>
            "Daily risk OK; " ++ fixed 4 remaining ++
              " USDT loss capacity remains; trade count unlimited"
          | none => "Daily net-loss limit disabled; trade count unlimited"
      lockType := if blocked then some .dailyNetLoss else none
      dailyLossLimitEnabled := 0 < cap
      dailyLossCapUsdt := cap
      realizedNetPnl := some (round8 realizedNet)
      lossUsed := some (round8 lossUsed)
      remainingLossCapacity := remaining.map round8
      pnlMessage := if pnlMessage = "" then "OK" else pnlMessage }

/-! ## A trading day -/

/-- The amount of a row. -/
def ClosedPnlRow.amount (row : ClosedPnlRow) : ℚ := number row.closedPnl

/-- A day, as the exchange has recorded it: the rows of the day, and the earlier ones, each from
    the newest to the oldest. Times are in milliseconds. -/
structure TradingDay where
  startEpoch : ℤ
  rows : List ClosedPnlRow
  earlier : List ClosedPnlRow
  /-- The day is later than April 1970, and its start is in seconds. -/
  modern : 10000000 ≤ startEpoch ∧ startEpoch < 10000000000
  ofDay : ∀ row ∈ rows, ∃ t q, row.updatedTime = .value t ∧ row.closedPnl = .value q ∧
    startEpoch * 1000 ≤ t ∧ t < startEpoch * 1000 + 86400000
  before : ∀ row ∈ earlier, ∃ t, row.updatedTime = .value t ∧
    10000000000 ≤ t ∧ t < startEpoch * 1000

/-- How the requests of an evaluation go: what the executions are, and which requests fail. -/
structure Requests where
  executions : Except String (List Execution)
  closedPnlFails : Option String
  historyFails : Option String

namespace TradingDay

variable (day : TradingDay)

/-- What the exchange answers. -/
def answers (requests : Requests) : Answers where
  closedPnl := match requests.closedPnlFails with
    | none => .ok day.rows
    | some message => .error message
  executions := requests.executions
  history := match requests.historyFails with
    | none => .ok (day.rows ++ day.earlier)
    | some message => .error message

/-- The closed profit of the day. -/
def pnl : ℚ := (day.rows.map (·.amount)).sum

/-- The rows that the closed trades keep, after trades with these ids. -/
def kept (maxRows : ℕ) (ids : List String) : List ClosedPnlRow → List ClosedPnlRow
  | [] => []
  | row :: rows =>
    if maxRows ≤ ids.length then []
    else if (normalizeClosedTrade row).id ∈ ids then kept maxRows ids rows
    else row :: kept maxRows (ids ++ [(normalizeClosedTrade row).id]) rows

/-- The rows that they leave out: those of an id that was seen, and those after the first
    `maxRows`. -/
def dropped (maxRows : ℕ) (ids : List String) : List ClosedPnlRow → List ClosedPnlRow
  | [] => []
  | row :: rows =>
    if maxRows ≤ ids.length then row :: rows
    else if (normalizeClosedTrade row).id ∈ ids then row :: dropped maxRows ids rows
    else dropped maxRows (ids ++ [(normalizeClosedTrade row).id]) rows

/-- `executions` -/
def executionsOf (requests : Requests) : List Execution :=
  match requests.executions with
  | .ok executions => executions.take pageLimit
  | .error _ => []

/-- The row is of a position that an order of the journal opened. -/
def Opened (orders : List AcceptedOrder) (requests : Requests) (row : ClosedPnlRow) : Prop :=
  IsTodayTrade orders (executionsOf requests) row
    ((row.time (day.startEpoch * 1000)).getD (day.startEpoch * 1000))

instance (orders : List AcceptedOrder) (requests : Requests) (row : ClosedPnlRow) :
    Decidable (day.Opened orders requests row) := by
  unfold Opened
  infer_instance

/-- How the profit of a day is read. -/
inductive Reading
  /-- It is unavailable. -/
  | unread
  /-- The journal has no order of the day. -/
  | noOrders
  /-- The first page of closed profits. -/
  | page (orders : List AcceptedOrder)
  /-- The closed trades. -/
  | trades

def reading (journal : List JournalEntry) (requests : Requests) : Reading :=
  match acceptedOrders day.startEpoch journal with
  | .error _ => .unread
  | .ok [] => .noOrders
  | .ok (order :: orders) =>
    match requests.closedPnlFails, requests.historyFails with
    | none, _ => .page (order :: orders)
    | some _, none => .trades
    | some _, some _ => .unread

/-- The rows of the day that are counted. -/
def counted (requests : Requests) : Reading → List ClosedPnlRow
  | .unread | .noOrders => []
  | .page orders => (day.rows.take pageLimit).filter (day.Opened orders requests ·)
  | .trades => kept 500 [] day.rows

/-- The rows of the day that are left out; none is where the profit is unavailable. -/
def leftOut (requests : Requests) : Reading → List ClosedPnlRow
  | .unread => []
  | .noOrders => day.rows
  | .page orders =>
    (day.rows.take pageLimit).filter (¬day.Opened orders requests ·) ++ day.rows.drop pageLimit
  | .trades => dropped 500 [] day.rows

/-- The closed profit of the rows that are left out. -/
def leftOutPnl (requests : Requests) (reading : Reading) : ℚ :=
  ((day.leftOut requests reading).map (·.amount)).sum

/-- What is added to the closed profit of the rows that are counted, as their amounts and the sums
    are rounded to doubles. -/
def rounding (requests : Requests) (reading : Reading) : ℚ :=
  let counted := day.counted requests reading
  match reading with
  | .unread | .noOrders => 0
  | .page _ => Double.sum (counted.map fun row => Double.round row.amount) -
      (counted.map (·.amount)).sum
  | .trades =>
    Double.compensatedSum ((sortTrades (counted.map normalizeClosedTrade)).map (·.closedPnl)) -
      (counted.map (·.amount)).sum

variable {day}

/-! ## The first page -/

theorem rowPnl_eq {row : ClosedPnlRow} (hrow : row ∈ day.rows) (orders : List AcceptedOrder)
    (requests : Requests) :
    rowPnl (day.startEpoch * 1000) orders (executionsOf requests) row =
      if day.Opened orders requests row then some (Double.round row.amount) else none := by
  obtain ⟨t, q, ht, hq, hstart, -⟩ := day.ofDay row hrow
  have htime : row.time (day.startEpoch * 1000) = some t := by
    simp [ClosedPnlRow.time, ht, Field.or, Field.orDefault]
  have hpnl : row.pnl = some (Double.round row.amount) := by
    simp [ClosedPnlRow.pnl, hq, Field.orDefault, ClosedPnlRow.amount, number]
  simp [rowPnl, htime, hpnl, hstart, Opened]

/-- The rows of the first page that the journal opened are counted. -/
theorem filterMap_rowPnl (orders : List AcceptedOrder) (requests : Requests) :
    (day.rows.take pageLimit).filterMap
        (rowPnl (day.startEpoch * 1000) orders (executionsOf requests)) =
      (day.counted requests (.page orders)).map fun row => Double.round row.amount := by
  rw [counted, ← List.filterMap_eq_map, List.filterMap_filter]
  refine List.filterMap_congr fun row hrow => ?_
  rw [rowPnl_eq (List.mem_of_mem_take hrow)]
  by_cases h : day.Opened orders requests row <;> simp [h]

/-! ## The closed trades -/

/-- The trades, with one more row: a row whose id was seen is left out, and so is one that comes
    after the first `maxRows`. -/
def keep (maxRows : ℕ) (trades : List ClosedTrade) (row : ClosedPnlRow) : List ClosedTrade :=
  if maxRows ≤ trades.length ∨ (normalizeClosedTrade row).id ∈ trades.map (·.id) then trades
  else trades ++ [normalizeClosedTrade row]

theorem length_keep (maxRows : ℕ) (trades : List ClosedTrade) (row : ClosedPnlRow) :
    (keep maxRows trades row).length ≤ trades.length + 1 := by
  unfold keep
  split <;> simp

/-- A batch that has room is added row by row. -/
theorem addBatch_eq (maxRows : ℕ) (trades : List ClosedTrade) (batch : List ClosedPnlRow)
    (hroom : trades.length + batch.length ≤ maxRows) :
    addBatch trades batch = batch.foldl (keep maxRows) trades := by
  induction batch generalizing trades with
  | nil => rfl
  | cons row batch ih =>
    have hlt : ¬maxRows ≤ trades.length := by
      simp only [List.length_cons] at hroom
      omega
    have hkeep : keep maxRows trades row =
        if (normalizeClosedTrade row).id ∈ trades.map (·.id) then trades
        else trades ++ [normalizeClosedTrade row] := by
      simp [keep, hlt]
    have hlength := length_keep maxRows trades row
    simp only [List.length_cons] at hroom
    rw [List.foldl_cons, ← ih _ (by omega), hkeep, addBatch, List.foldl_cons, addBatch]

theorem keep_full {maxRows : ℕ} {trades : List ClosedTrade} (h : maxRows ≤ trades.length)
    (rows : List ClosedPnlRow) : rows.foldl (keep maxRows) trades = trades := by
  induction rows with
  | nil => rfl
  | cons row rows ih => rw [List.foldl_cons, keep, if_pos (.inl h), ih]

/-- The pages are read as if they were one list. -/
theorem fetchPages_eq (maxRows : ℕ) (trades : List ClosedTrade) (rows : List ClosedPnlRow) :
    fetchPages maxRows trades rows = rows.foldl (keep maxRows) trades := by
  induction trades, rows using fetchPages.induct maxRows with
  | case1 trades rows requestLimit h =>
    rw [fetchPages, dif_pos h]
    rcases h with rfl | h
    · rfl
    · have hfull : maxRows ≤ trades.length := by
        simp only [requestLimit, pageLimit] at h
        omega
      exact (keep_full hfull rows).symm
  | case2 trades rows requestLimit h ih =>
    rw [fetchPages, dif_neg h, ih, addBatch_eq maxRows, ← List.foldl_append,
      List.take_append_drop]
    rw [List.length_take]
    simp only [requestLimit]
    omega

/-- The trades are those of the rows that are kept. -/
theorem foldl_keep (maxRows : ℕ) (trades : List ClosedTrade) (rows : List ClosedPnlRow) :
    rows.foldl (keep maxRows) trades =
      trades ++ (kept maxRows (trades.map (·.id)) rows).map normalizeClosedTrade := by
  induction rows generalizing trades with
  | nil => simp [kept]
  | cons row rows ih =>
    rw [List.foldl_cons, kept, List.length_map]
    by_cases hfull : maxRows ≤ trades.length
    · rw [keep, if_pos (.inl hfull), keep_full hfull, if_pos hfull, List.map_nil, List.append_nil]
    · rw [if_neg hfull, keep]
      by_cases hseen : (normalizeClosedTrade row).id ∈ trades.map (·.id)
      · rw [if_pos (.inr hseen), if_pos hseen, ih]
      · rw [if_neg (not_or.2 ⟨hfull, hseen⟩), if_neg hseen, ih, List.map_append, List.map_singleton,
          List.map_cons, List.append_assoc, List.singleton_append]

theorem kept_append_dropped_perm (maxRows : ℕ) (ids : List String) (rows : List ClosedPnlRow) :
    (kept maxRows ids rows ++ dropped maxRows ids rows).Perm rows := by
  induction rows generalizing ids with
  | nil => exact .refl _
  | cons row rows ih =>
    rw [kept, dropped]
    split_ifs
    · exact .refl _
    · exact List.perm_middle.trans ((ih ids).cons row)
    · exact (ih _).cons row

theorem mem_of_mem_kept {maxRows : ℕ} {ids : List String} {rows : List ClosedPnlRow}
    {row : ClosedPnlRow} (h : row ∈ kept maxRows ids rows) : row ∈ rows :=
  (kept_append_dropped_perm maxRows ids rows).subset (List.mem_append_left _ h)

theorem length_kept (maxRows : ℕ) (ids : List String) (rows : List ClosedPnlRow) :
    (kept maxRows ids rows).length ≤ maxRows - ids.length := by
  induction rows generalizing ids with
  | nil => exact Nat.zero_le _
  | cons row rows ih =>
    rw [kept]
    split_ifs
    · exact Nat.zero_le _
    · exact ih ids
    · have hrest := ih (ids ++ [(normalizeClosedTrade row).id])
      rw [List.length_append, List.length_singleton] at hrest
      rw [List.length_cons]
      omega

/-- A row of the day is normalized to a trade of the day, of the same amount. -/
theorem normalize_ofDay {row : ClosedPnlRow} (hrow : row ∈ day.rows) :
    (normalizeClosedTrade row).OfDay (day.startEpoch * 1000) ∧
      (normalizeClosedTrade row).closedPnl = Double.round row.amount := by
  obtain ⟨t, q, ht, hq, hstart, hend⟩ := day.ofDay row hrow
  have hmodern := day.modern
  have htime : timestampMs (row.updatedTime.or row.createdTime) = t := by
    simp only [ht, Field.or, timestampMs]
    rw [if_neg (by omega)]
    omega
  exact ⟨by simpa [normalizeClosedTrade, ClosedTrade.OfDay, htime] using ⟨hstart, hend⟩, by
    simp [normalizeClosedTrade, ClosedPnlRow.pnl, hq, Field.orDefault, ClosedPnlRow.amount, number]⟩

theorem normalize_before {row : ClosedPnlRow} (hrow : row ∈ day.earlier) :
    ¬(normalizeClosedTrade row).OfDay (day.startEpoch * 1000) := by
  obtain ⟨t, ht, hmodern, hbefore⟩ := day.before row hrow
  have htime : timestampMs (row.updatedTime.or row.createdTime) = t := by
    simp only [ht, Field.or, timestampMs]
    rw [if_neg (by omega)]
    omega
  simp [normalizeClosedTrade, ClosedTrade.OfDay, htime, hbefore]

variable (day) in
/-- The trades of the day are those of its rows that are kept. -/
theorem filter_fetchClosedTrades :
    (fetchClosedTrades 500 (day.rows ++ day.earlier)).filter (·.OfDay (day.startEpoch * 1000)) =
      sortTrades ((kept 500 [] day.rows).map normalizeClosedTrade) := by
  rw [fetchClosedTrades, sortTrades, filter_sortBy, fetchPages_eq, List.foldl_append, foldl_keep,
    foldl_keep, List.filter_append, List.nil_append, List.map_nil]
  have hday : ((kept 500 [] day.rows).map normalizeClosedTrade).filter
      (·.OfDay (day.startEpoch * 1000)) = (kept 500 [] day.rows).map normalizeClosedTrade := by
    rw [List.filter_eq_self]
    intro trade htrade
    obtain ⟨row, hrow, rfl⟩ := List.mem_map.1 htrade
    exact decide_eq_true (normalize_ofDay (mem_of_mem_kept hrow)).1
  have hearlier : ∀ ids, ((kept 500 ids day.earlier).map normalizeClosedTrade).filter
      (·.OfDay (day.startEpoch * 1000)) = [] := fun ids => by
    rw [List.filter_eq_nil_iff]
    intro trade htrade
    obtain ⟨row, hrow, rfl⟩ := List.mem_map.1 htrade
    simpa using normalize_before (mem_of_mem_kept hrow)
  rw [hday, hearlier, List.append_nil, sortTrades]

/-! ## What is read -/

/-- Every row of the day is counted or left out. -/
theorem pnl_eq (requests : Requests) {reading : Reading} (hread : reading ≠ .unread) :
    day.pnl = ((day.counted requests reading).map (·.amount)).sum +
      day.leftOutPnl requests reading := by
  have hperm : (day.counted requests reading ++ day.leftOut requests reading).Perm day.rows := by
    cases reading with
    | unread => exact absurd rfl hread
    | noOrders => exact .refl _
    | page orders =>
      have hpage := List.filter_append_perm (day.Opened orders requests ·) (day.rows.take pageLimit)
      have hrest := hpage.append_right (day.rows.drop pageLimit)
      rw [List.take_append_drop, List.append_assoc] at hrest
      simpa [counted, leftOut] using hrest
    | trades => exact kept_append_dropped_perm 500 [] day.rows
  rw [pnl, leftOutPnl, ← List.sum_append, ← List.map_append]
  exact (hperm.map _).sum_eq.symm

/-- Either the profit of the day is unavailable, or it is that of the rows that are counted, added
    up as doubles. -/
theorem installed_cases (day : TradingDay) (journal : List JournalEntry) (requests : Requests) :
    (∃ message, installedDailyClosedPnl day.startEpoch journal (day.answers requests) =
        .ok (some (day.pnl - day.leftOutPnl requests (day.reading journal requests) +
          day.rounding requests (day.reading journal requests)), message)) ∨
      day.reading journal requests = .unread ∧
        ((∃ message, installedDailyClosedPnl day.startEpoch journal (day.answers requests) =
            .ok (none, message)) ∨
          ∃ error, installedDailyClosedPnl day.startEpoch journal (day.answers requests) =
            .error error) := by
  -- The journal may not be readable, may be empty, or name orders; then the first request may
  -- fail.
  cases horders : acceptedOrders day.startEpoch journal with
  | error e =>
    refine .inr ⟨by rw [reading, horders], .inr ⟨e, ?_⟩⟩
    simp [installedDailyClosedPnl, getDailyClosedPnl, horders]
    rfl
  | ok orders =>
    cases orders with
    | nil =>
      have hreading : day.reading journal requests = .noOrders := by rw [reading, horders]
      have hpnl := @pnl_eq day requests .noOrders (by simp)
      refine .inl ⟨"OK", ?_⟩
      rw [hreading, hpnl]
      simp [installedDailyClosedPnl, getDailyClosedPnl, horders, rounding, counted]
      rfl
    | cons order orders =>
      cases hfails : requests.closedPnlFails with
      | none =>
        have hreading : day.reading journal requests = .page (order :: orders) := by
          simp only [reading, horders, hfails]
        have hpnl := @pnl_eq day requests (.page (order :: orders)) (by simp)
        have hget : getDailyClosedPnl day.startEpoch journal (day.answers requests) =
            .ok (some (Double.sum ((day.counted requests (.page (order :: orders))).map fun row =>
              Double.round row.amount)), "OK") := by
          rw [← filterMap_rowPnl]
          simp only [getDailyClosedPnl, horders, answers, hfails]
          rfl
        refine .inl ⟨"OK", ?_⟩
        rw [installedDailyClosedPnl, hget, hreading, hpnl, add_sub_cancel_right, rounding,
          add_sub_cancel]
        rfl
      | some message =>
        have hget : getDailyClosedPnl day.startEpoch journal (day.answers requests) =
            .ok (none, message) := by
          simp only [getDailyClosedPnl, horders, answers, hfails]
          rfl
        cases hhistory : requests.historyFails with
        | none =>
          have hreading : day.reading journal requests = .trades := by
            simp only [reading, horders, hfails, hhistory]
          have hpnl := @pnl_eq day requests .trades (by simp)
          have hfallback : (closedPnlFallback day.startEpoch message
              (.ok (day.rows ++ day.earlier))).1 = some (Double.compensatedSum
                ((sortTrades ((kept 500 [] day.rows).map normalizeClosedTrade)).map
                  (·.closedPnl))) := by
            simp only [closedPnlFallback, if_pos day.modern.2]
            rw [filter_fetchClosedTrades]
          refine .inl ⟨(closedPnlFallback day.startEpoch message
            (.ok (day.rows ++ day.earlier))).2, ?_⟩
          rw [installedDailyClosedPnl, hget, hreading, hpnl, add_sub_cancel_right, rounding,
            add_sub_cancel]
          simp only [answers, hhistory]
          rw [counted, ← hfallback]
          rfl
        | some error =>
          refine .inr ⟨by simp only [reading, horders, hfails, hhistory],
            .inl ⟨message ++ "; canonical closed-PnL fallback failed: " ++ error, ?_⟩⟩
          rw [installedDailyClosedPnl, hget]
          simp only [answers, hhistory]
          rfl

/-- The rounding is small against the amounts. -/
theorem abs_rounding_le (day : TradingDay) (requests : Requests) (reading : Reading) :
    |day.rounding requests reading| ≤
      (((day.counted requests reading).map fun row => |row.amount|).sum + 1 / 2 ^ 1000) /
        2 ^ 38 := by
  have hnone : (0 : ℚ) ≤ (0 + 1 / 2 ^ 1000) / 2 ^ 38 := by positivity
  have habs : ∀ rows : List ClosedPnlRow,
      (rows.map fun row => |row.amount|) = (rows.map (·.amount)).map abs := fun rows => by
    rw [List.map_map]
    rfl
  cases reading with
  | unread => simpa [rounding, counted] using hnone
  | noOrders => simpa [rounding, counted] using hnone
  | page orders =>
    set rows := day.counted requests (.page orders) with hrows
    have hlength : rows.length ≤ 100 := by
      rw [hrows, counted]
      exact (List.length_filter_le _ _).trans (List.length_take_le _ _)
    have hsum := Double.abs_sum_sub_le (rows.map fun row => Double.round row.amount)
    have hmap : (rows.map fun row => Double.round row.amount) =
        (rows.map (·.amount)).map Double.round := by
      rw [List.map_map]
      rfl
    rw [hmap, List.length_map, List.length_map] at hsum
    rw [habs, rounding, ← hrows, hmap]
    refine Double.abs_rounded_sub_le_of_few (n := rows.length) (by omega) ?_ hsum
    rw [List.length_map]
    omega
  | trades =>
    set rows := day.counted requests .trades with hrows
    have hlength : rows.length ≤ 500 := length_kept 500 [] day.rows
    -- sorted, the trades are still those of the rows
    have hperm : ((sortTrades (rows.map normalizeClosedTrade)).map (·.closedPnl)).Perm
        ((rows.map (·.amount)).map Double.round) := by
      refine ((sortBy_perm _ _).map _).trans ?_
      rw [List.map_map, List.map_map]
      refine .of_eq (List.map_congr_left fun row hrow => ?_)
      exact (normalize_ofDay (mem_of_mem_kept hrow)).2
    have hsum := Double.abs_compensatedSum_sub_le
      ((sortTrades (rows.map normalizeClosedTrade)).map (·.closedPnl))
    rw [hperm.sum_eq, (hperm.map abs).sum_eq, hperm.length_eq, List.length_map,
      List.length_map] at hsum
    rw [habs, rounding, ← hrows]
    refine Double.abs_rounded_sub_le_of_few (n := rows.length + 1) (by omega) ?_ hsum
    rw [List.length_map]
    omega

/-! ## The cap -/

theorem evaluate_none {startEpoch : ℤ} {journal : List JournalEntry} {answers : Answers}
    (cap : Field ℚ)
    (h : (∃ message, installedDailyClosedPnl startEpoch journal answers = .ok (none, message)) ∨
      ∃ error, installedDailyClosedPnl startEpoch journal answers = .error error) :
    (evaluate startEpoch journal answers cap).blocked = true := by
  rcases h with ⟨message, h⟩ | ⟨error, h⟩ <;> simp [evaluate, h]

theorem evaluate_some {startEpoch : ℤ} {journal : List JournalEntry} {answers : Answers}
    {value : ℚ} {message : String} {cap : ℚ} (hcap : 0 < cap)
    (h : installedDailyClosedPnl startEpoch journal answers = .ok (some value, message)) :
    (evaluate startEpoch journal answers (.value cap)).blocked = true ↔ value ≤ -cap := by
  have hloss : cap ≤ |min 0 value| ↔ value ≤ -cap := by
    rw [abs_of_nonpos (min_le_left 0 value), le_neg, min_le_iff]
    constructor
    · rintro (h | h)
      · linarith
      · exact h
    · exact .inr
  simp [evaluate, h, number, max_eq_right hcap.le, hcap, hloss]

end TradingDay

/-- A cap that the closed profit of the day has reached blocks new entries if and only if the day
    reaches it without the rows that are left out, and with what the rounding adds; the rounding is
    small. -/
theorem daily_cap_iff (day : TradingDay) (journal : List JournalEntry) (requests : Requests)
    {cap : ℚ} (hcap : 0 < cap) :
    ((day.pnl ≤ -cap →
        (evaluate day.startEpoch journal (day.answers requests) (.value cap)).blocked = true) ↔
      (day.pnl ≤ -cap → day.pnl - day.leftOutPnl requests (day.reading journal requests) +
        day.rounding requests (day.reading journal requests) ≤ -cap)) ∧
    |day.rounding requests (day.reading journal requests)| ≤
      (((day.counted requests (day.reading journal requests)).map fun row => |row.amount|).sum +
        1 / 2 ^ 1000) / 2 ^ 38 := by
  refine ⟨?_, day.abs_rounding_le requests _⟩
  rcases day.installed_cases journal requests with ⟨message, h⟩ | ⟨hunread, h⟩
  · rw [TradingDay.evaluate_some hcap h]
  · rw [TradingDay.evaluate_none _ h, hunread]
    simp [TradingDay.leftOutPnl, TradingDay.leftOut, TradingDay.rounding]

/-- A day whose closed positions have these results. -/
def dayOf (amounts : List ℚ) : TradingDay where
  startEpoch := 1700000000
  rows := amounts.map fun q =>
    ⟨"BTCUSDT", "Sell", "close-1", "", .value 1700000001000, .missing, .value q⟩
  earlier := []
  modern := by decide
  ofDay := by
    intro row hrow
    obtain ⟨q, -, rfl⟩ := List.mem_map.1 hrow
    exact ⟨_, _, rfl, rfl, by decide, by decide⟩
  before := by simp

/-- All requests succeed, and no execution is listed. -/
def plainRequests : Requests := ⟨.ok [], none, none⟩

/-- The journal has an order of the day for the symbol. -/
def exampleJournal : List JournalEntry :=
  [⟨.value 1700000000, .autoOrder, "BTCUSDT", some ⟨.value 0, "order-1", ""⟩, []⟩]

/-- Four losses that sum to 50 are a little less as doubles. -/
example :
    (dayOf [-1877 / 100, -2458 / 100, -115 / 100, -550 / 100]).pnl = -50 ∧
      (evaluate 1700000000 exampleJournal
        ((dayOf [-1877 / 100, -2458 / 100, -115 / 100, -550 / 100]).answers plainRequests)
        (.value 50)).blocked = false := by
  decide +kernel

/-- The journal has the order that opened the positions. -/
theorem daily_cap_journal :
    (evaluate 1700000000 exampleJournal
      ((dayOf [-1877 / 100, -2458 / 100, -115 / 100, -551 / 100]).answers plainRequests)
      (.value 50)).blocked = true :=
  (daily_cap_iff (dayOf [-1877 / 100, -2458 / 100, -115 / 100, -551 / 100]) exampleJournal
    plainRequests (by decide)).1.2 (by decide +kernel) (by decide +kernel)

/-- Another process opened the position: the journal has no order of the day. -/
theorem daily_cap_not_sound :
    ¬∀ (day : TradingDay) (journal : List JournalEntry) (requests : Requests) (cap : ℚ),
      0 < cap → day.pnl ≤ -cap →
      (evaluate day.startEpoch journal (day.answers requests) (.value cap)).blocked = true := by
  intro hall
  have hblocked := hall (dayOf [-100]) [] plainRequests 50 (by decide) (by decide +kernel)
  revert hblocked
  decide +kernel

end IntradayBot.Risk
