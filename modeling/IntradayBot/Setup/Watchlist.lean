import IntradayBot.Data.Except
import IntradayBot.Data.Json
import IntradayBot.Data.PyText
import IntradayBot.Runtime.Orchestrator
import IntradayBot.Setup.Stage
import IntradayBot.Setup.Trend
import Mathlib.Data.List.ReduceOption
import Mathlib.Data.Prod.Lex
import Mathlib.Data.String.Basic

/-!
# The hourly watchlist

The first stage of the scan. Of the tickers of all contracts those are eligible that have a price,
the turnover and a narrow spread (`eligible`), once for each symbol. Of these a symbol qualifies if
its closed 1H candles have a trend (`qualify`); the best ranked ones are the watchlist (`scan`).

The watchlist is the top of what qualifies (`scan_top`). Numbers of the exchange are finite, and
symbols are ASCII texts; `log1p` is a parameter.
-/

namespace IntradayBot.Setup

open Accuracy
open IntradayBot.Runtime (integer)

/-! ## Settings -/

/-- `_number(name, default, minimum, maximum)` -/
def number (value : Option ℚ) (default minimum maximum : ℚ) : ℚ :=
  max minimum (min maximum (value.getD default))

/-- The variables of the environment, if they are numbers. -/
structure WatchEnvironment where
  size : Option ℤ
  minimumClosedCandles : Option ℤ
  minimumTurnover : Option ℚ
  maximumSpreadPct : Option ℚ

/-- `settings()` -/
structure WatchSettings where
  watchlistSize : ℤ
  minimumClosedCandles : ℤ
  minimumTurnover : ℚ
  maximumSpreadPct : ℚ

/-- `settings()`, with these variables of the environment. -/
def WatchEnvironment.settings (env : WatchEnvironment) : WatchSettings where
  watchlistSize := integer env.size 50 1 100
  minimumClosedCandles := integer env.minimumClosedCandles 60 60 240
  minimumTurnover := number env.minimumTurnover 10000000 0 1000000000
  maximumSpreadPct := number env.maximumSpreadPct (1 / 5) (1 / 100) 3

theorem integer_le (value : Option ℤ) (default : ℤ) {minimum maximum : ℤ} (h : minimum ≤ maximum) :
    integer value default minimum maximum ≤ maximum := max_le h (min_le_left ..)

/-! ## The market -/

/-- A number of the exchange, as `float(x or 0)` reads it: `none` is a text that is no number, and
    `some 0` also stands for one that is missing. -/
abbrev Reading := Option ℚ

/-- A ticker of `/v5/market/tickers`. -/
structure Ticker where
  symbol : String
  lastPrice : Reading
  turnover24h : Reading
  price24hPcnt : Reading
  bid1Price : Reading
  ask1Price : Reading

/-- A row of `market`, with its symbol. -/
structure MarketRow where
  symbol : String
  lastPrice : ℚ
  turnover24h : ℚ
  spreadPct : ℚ
  change24hPct : ℚ
  deriving DecidableEq

/-- `_spread_pct(item)` -/
def spreadPct (item : Ticker) : Option ℚ := do
  let bid ← item.bid1Price
  let ask ← item.ask1Price
  let last ← item.lastPrice
  if bid ≤ 0 ∨ ask ≤ 0 ∨ last ≤ 0 ∨ ask < bid then none else return (ask - bid) / last * 100

/-- `symbol.endswith("USDT") and symbol.isalnum()` -/
def validSymbol (symbol : String) : Bool :=
  "USDT".toList <:+ symbol.toList ∧ symbol.toList.all Char.isAlphanum

/-- The row of a ticker that is eligible. -/
def eligible (cfg : WatchSettings) (item : Ticker) : Option MarketRow := do
  let symbol := Json.upperCase item.symbol
  if ¬validSymbol symbol then none
  else
    let last ← item.lastPrice
    let turnover ← item.turnover24h
    let change ← item.price24hPcnt
    if last ≤ 0 ∨ turnover < cfg.minimumTurnover then none
    else
      let spread ← spreadPct item
      if cfg.maximumSpreadPct < spread then none
      else return {
        symbol := symbol
        lastPrice := last
        turnover24h := turnover
        spreadPct := roundTo 5 spread
        change24hPct := roundTo 5 (change * 100) }

/-- `_eligible_market(core)`: the rows of the market by their symbols; of the eligible tickers of a
    symbol the last one counts. -/
def eligibleMarket (cfg : WatchSettings) (tickers : List Ticker) : List MarketRow :=
  let rows := tickers.filterMap (eligible cfg)
  (sortBy id (rows.map (·.symbol)).dedup).filterMap fun symbol =>
    rows.reverse.find? (·.symbol = symbol)

/-! ## The watchlist -/

/-- What the exchange answers to a scan. -/
structure WatchAnswers where
  /-- The list of an answer that is no success is empty. -/
  tickers : Except String (List Ticker)
  /-- `core.fetch_candles(symbol, "60", limit=…)`, of which `None` is the empty list. -/
  candles : String → Except String (List Accuracy.Bar)

/-- A row that qualified. -/
structure Qualified extends MarketRow where
  trend : Trend
  trendScore : ℚ
  oneHourReason : String
  oneHourCandleTime : ℤ
  lastScannedAt : ℤ
  selectedAt : ℤ
  deriving DecidableEq

/-- A row of the watchlist. -/
structure WatchRow extends Qualified where
  rankScore : ℚ
  deriving DecidableEq

/-- `symbols` and `rows`. -/
structure Watchlist where
  symbols : List String
  rows : List WatchRow

/-- `_closed_history(core, symbol, minimum, now_ms)`, of the candles of the answer. -/
def closedHistory (candles : List Accuracy.Bar) (interval : Interval) (minimum nowMs : ℤ) :
    List Accuracy.Bar :=
  let closed := filterClosedCandles candles interval nowMs
  if minimum ≤ closed.length then closed else []

/-- The row of a symbol that qualifies. -/
def qualify (cfg : WatchSettings) (answers : WatchAnswers) (timestamp : ℤ) (ticker : MarketRow) :
    Except String (Option Qualified) := do
  let candles ← answers.candles ticker.symbol
  let history := closedHistory candles .sixty cfg.minimumClosedCandles (timestamp * 1000)
  match history.getLast? with
  | none => return none
  | some last =>
    if last.time ≠ targetOpenMs .sixty timestamp then return none
    else match classifyTrend history with
    | (none, _) => return none
    | (some trend, score, reason) =>
      return some {
        ticker with
        trend := trend
        trendScore := roundTo 4 score
        oneHourReason := reason
        oneHourCandleTime := last.time
        lastScannedAt := timestamp
        selectedAt := timestamp }

/-- The rows that qualify. -/
def qualifyAll (cfg : WatchSettings) (answers : WatchAnswers) (timestamp : ℤ)
    (market : List MarketRow) : Except String (List Qualified) := do
  return (← market.mapM (qualify cfg answers timestamp)).reduceOption

/-- The greatest turnover, or `1.0`. -/
def maxTurnover (rows : List Qualified) : ℚ :=
  let greatest := (rows.map (·.turnover24h)).max?.getD 0
  if greatest = 0 then 1 else greatest

/-- `row["rankScore"]` -/
def rankScore (log1p : ℚ → ℚ) (maxTurnover : ℚ) (row : Qualified) : ℚ :=
  let liquidity := log1p row.turnover24h / log1p maxTurnover
  let spreadQuality := 1 - min 1 (row.spreadPct / (1 / 5))
  roundTo 4 (row.trendScore * (65 / 100) + liquidity * 25 + spreadQuality * 10)

/-- What the rows are ranked by. -/
def WatchRow.rank (row : WatchRow) : ℚ ×ₗ ℚ := toLex (row.rankScore, row.turnover24h)

/-- `_rank_rows(rows)` -/
def rankRows (log1p : ℚ → ℚ) (rows : List Qualified) : List WatchRow :=
  sortBy (fun row => OrderDual.toDual row.rank)
    (rows.map fun row => ⟨row, rankScore log1p (maxTurnover rows) row⟩)

/-- The part of `build(core, now)` that computes the payload. -/
def scan (log1p : ℚ → ℚ) (cfg : WatchSettings) (answers : WatchAnswers) (timestamp : ℤ) :
    Except String (Body Watchlist) := do
  let market := eligibleMarket cfg (← answers.tickers)
  if market = [] then .error "No eligible USDT perpetual symbols for closed-1H scan"
  else
    let qualified ← qualifyAll cfg answers timestamp market
    let selected := (rankRows log1p qualified).take cfg.watchlistSize.toNat
    return {
      status := if selected = [] then .empty else .ready
      candleTime := some (targetOpenMs .sixty timestamp)
      updatedAt := timestamp
      content := ⟨selected.map (·.symbol), selected⟩
      lastError := if selected = [] then
          some "No BULLISH/BEARISH symbol qualified on the closed 1H bar"
        else none }

/-- The body that is read back has the candle time and the symbols that were saved. -/
def Watchlist.confirms (confirmed body : Body Watchlist) : Bool :=
  confirmed.candleTime = body.candleTime ∧ confirmed.content.symbols = body.content.symbols

/-- What a restart keeps of a saved watchlist. -/
def Watchlist.accept (size : ℤ) (saved : Watchlist) : Option Watchlist :=
  let rows := saved.rows.take size.toNat
  let symbols := ((saved.symbols.map Json.upperCase).filter fun symbol =>
    PyText.strip symbol ≠ "").take size.toNat
  if rows.isEmpty = symbols.isEmpty then some ⟨symbols, rows⟩ else none

/-- What a scan meets. -/
structure WatchBuild where
  env : WatchEnvironment
  answers : WatchAnswers
  saving : Saving

/-- `build(core, now)` -/
def buildWatchlist (log1p : ℚ → ℚ) (b : WatchBuild) (timestamp : ℤ) (s : Stage Watchlist) :
    Stage Watchlist :=
  s.build Watchlist.confirms (fun content => content.symbols ≠ []) b.saving
    (scan log1p b.env.settings b.answers timestamp)

/-- `ensure_current(core, now)` -/
def ensureWatchlist (log1p : ℚ → ℚ) (b : WatchBuild) (timestamp : ℤ) (s : Stage Watchlist) :
    Stage Watchlist :=
  if s.due .sixty timestamp then buildWatchlist log1p b timestamp s else s

/-! ## What is selected -/

variable {log1p : ℚ → ℚ} {cfg : WatchSettings} {answers : WatchAnswers} {timestamp : ℤ}

/-- The row of a ticker that is the last eligible one of its symbol. -/
def LastEligible (cfg : WatchSettings) (tickers : List Ticker) (row : MarketRow) : Prop :=
  ∃ before item after, tickers = before ++ item :: after ∧ eligible cfg item = some row ∧
    ∀ later ∈ after, ∀ other ∈ eligible cfg later, other.symbol ≠ row.symbol

/-- The symbol qualifies: it is eligible, and its closed 1H candles up to the latest one have a
    trend. -/
structure Qualifies (cfg : WatchSettings) (answers : WatchAnswers) (timestamp : ℤ)
    (row : Qualified) : Prop where
  eligible : ∃ tickers, answers.tickers = .ok tickers ∧ LastEligible cfg tickers row.toMarketRow
  classified : ∃ candles score, answers.candles row.symbol = .ok candles ∧
    classifyTrend (filterClosedCandles candles .sixty (timestamp * 1000)) =
      (some row.trend, score, row.oneHourReason) ∧ row.trendScore = roundTo 4 score ∧
    cfg.minimumClosedCandles ≤ (filterClosedCandles candles .sixty (timestamp * 1000)).length ∧
    ∃ last ∈ (filterClosedCandles candles .sixty (timestamp * 1000)).getLast?,
      last.time = row.oneHourCandleTime
  current : row.oneHourCandleTime = targetOpenMs .sixty timestamp
  scanned : row.lastScannedAt = timestamp ∧ row.selectedAt = timestamp

theorem mem_eligibleMarket {tickers : List Ticker} {row : MarketRow} :
    row ∈ eligibleMarket cfg tickers ↔ LastEligible cfg tickers row := by
  have hfind : row ∈ eligibleMarket cfg tickers ↔
      (tickers.filterMap (eligible cfg)).reverse.find? (·.symbol = row.symbol) = some row := by
    simp only [eligibleMarket, List.mem_filterMap, mem_sortBy, List.mem_dedup]
    constructor
    · rintro ⟨symbol, -, hfind⟩
      obtain rfl : row.symbol = symbol := by simpa using List.find?_some hfind
      exact hfind
    · intro hfind
      have hmem := List.mem_of_find?_eq_some hfind
      exact ⟨row.symbol, List.mem_map_of_mem (List.mem_reverse.1 hmem), hfind⟩
  rw [hfind, List.find?_eq_some_iff_append]
  constructor
  · rintro ⟨-, later, earlier, hsplit, hlater⟩
    rw [List.reverse_eq_iff, List.reverse_append, List.reverse_cons, List.append_assoc,
      List.filterMap_eq_append_iff] at hsplit
    obtain ⟨before, rest, rfl, -, hrest⟩ := hsplit
    obtain ⟨skipped, item, after, rfl, hskipped, hitem, hafter⟩ := List.filterMap_eq_cons_iff.1 hrest
    refine ⟨before ++ skipped, item, after, by simp, hitem, fun c hc other hother => ?_⟩
    have hmem : other ∈ after.filterMap (eligible cfg) := List.mem_filterMap.2 ⟨c, hc, hother⟩
    simpa using hlater other (by simpa [hafter] using hmem)
  · rintro ⟨before, item, after, rfl, hitem, hafter⟩
    refine ⟨by simp, (after.filterMap (eligible cfg)).reverse,
      (before.filterMap (eligible cfg)).reverse, by simp [hitem], fun other hother => ?_⟩
    obtain ⟨later, hlater, hother⟩ := List.mem_filterMap.1 (List.mem_reverse.1 hother)
    simpa using hafter later hlater other hother

/-- The keys of what is found by its key are some of the keys, in order. -/
theorem map_filterMap_sublist {α β : Type} {f : α → Option β} {key : β → α}
    (h : ∀ a b, f a = some b → key b = a) (l : List α) : ((l.filterMap f).map key).Sublist l := by
  induction l with
  | nil => exact .slnil
  | cons a l ih =>
    cases hfa : f a with
    | none => exact (List.filterMap_cons_none hfa).symm ▸ ih.cons a
    | some b =>
      rw [List.filterMap_cons_some hfa, List.map_cons, h a b hfa]
      exact ih.cons_cons a

theorem nodup_eligibleMarket (cfg : WatchSettings) (tickers : List Ticker) :
    ((eligibleMarket cfg tickers).map (·.symbol)).Nodup := by
  refine (map_filterMap_sublist ?_ _).nodup ((sortBy_perm id _).nodup_iff.2 (List.nodup_dedup _))
  intro symbol row hfind
  simpa using List.find?_some hfind

theorem qualify_eq_some {ticker : MarketRow} {row : Qualified} :
    qualify cfg answers timestamp ticker = .ok (some row) ↔
      row.toMarketRow = ticker ∧ row.oneHourCandleTime = targetOpenMs .sixty timestamp ∧
      (row.lastScannedAt = timestamp ∧ row.selectedAt = timestamp) ∧
      ∃ candles score, answers.candles ticker.symbol = .ok candles ∧
        classifyTrend (filterClosedCandles candles .sixty (timestamp * 1000)) =
          (some row.trend, score, row.oneHourReason) ∧ row.trendScore = roundTo 4 score ∧
        cfg.minimumClosedCandles ≤ (filterClosedCandles candles .sixty (timestamp * 1000)).length ∧
        ∃ last ∈ (filterClosedCandles candles .sixty (timestamp * 1000)).getLast?,
          last.time = row.oneHourCandleTime := by
  rw [qualify, bind_eq_ok]
  constructor
  · rintro ⟨candles, hcandles, h⟩
    dsimp only at h
    split at h
    · cases h
    rename_i last hlast
    rw [closedHistory] at hlast h
    split at hlast
    swap
    · cases hlast
    rename_i hminimum
    rw [if_pos hminimum] at h
    split at h
    · cases h
    rename_i htime
    split at h
    · cases h
    rename_i trend score reason htrend
    obtain rfl := Option.some.inj (Except.ok.inj h)
    exact ⟨rfl, not_not.1 htime, ⟨rfl, rfl⟩, candles, score, hcandles, htrend, rfl, hminimum,
      last, hlast, rfl⟩
  · rintro ⟨rfl, htime, ⟨hscanned, hselected⟩, candles, score, hcandles, htrend, hscore, hminimum,
      last, hlast, hlasttime⟩
    refine ⟨candles, hcandles, ?_⟩
    have hhistory : closedHistory candles .sixty cfg.minimumClosedCandles (timestamp * 1000) =
        filterClosedCandles candles .sixty (timestamp * 1000) := if_pos hminimum
    have hcurrent : ¬last.time ≠ targetOpenMs .sixty timestamp := by
      rw [not_not, hlasttime, htime]
    dsimp only
    rw [hhistory, Option.mem_def.1 hlast]
    dsimp only
    rw [if_neg hcurrent, htrend]
    dsimp only
    rw [← hscore, hlasttime]
    obtain ⟨_, trend, trendScore, reason, candleTime, _, _⟩ := row
    simp only at hscanned hselected
    rw [hscanned, hselected]
    rfl

/-- The rows that qualify are some of the market, in order. -/
theorem qualifyAll_sublist {market : List MarketRow} {all : List Qualified}
    (h : qualifyAll cfg answers timestamp market = .ok all) :
    (all.map (·.toMarketRow)).Sublist market := by
  obtain ⟨rows, hrows, hreduce⟩ := bind_eq_ok.1 h
  obtain rfl := pure_eq_ok.1 hreduce
  have hall := mapM_eq_ok.1 hrows
  clear h hrows hreduce
  induction hall with
  | nil => exact .slnil
  | @cons ticker row market rows hrow _ ih =>
    cases row with
    | none => exact ih.cons ticker
    | some row =>
      obtain rfl := (qualify_eq_some.1 hrow).1
      exact ih.cons_cons _

theorem mem_qualifyAll {market : List MarketRow} {all : List Qualified}
    (h : qualifyAll cfg answers timestamp market = .ok all) {row : Qualified} :
    row ∈ all ↔ ∃ ticker ∈ market, qualify cfg answers timestamp ticker = .ok (some row) := by
  obtain ⟨rows, hrows, hreduce⟩ := bind_eq_ok.1 h
  obtain rfl := pure_eq_ok.1 hreduce
  rw [List.reduceOption_mem_iff]
  constructor
  · exact exists_of_mem_mapM hrows
  · rintro ⟨ticker, hticker, hrow⟩
    obtain ⟨found, hfound, heq⟩ := exists_of_mapM hrows hticker
    rwa [Except.ok.inj (hrow.symm.trans heq)]

theorem mem_qualifyAll_iff {tickers : List Ticker} {all : List Qualified}
    (htickers : answers.tickers = .ok tickers)
    (h : qualifyAll cfg answers timestamp (eligibleMarket cfg tickers) = .ok all) {row : Qualified} :
    row ∈ all ↔ Qualifies cfg answers timestamp row := by
  rw [mem_qualifyAll h]
  constructor
  · rintro ⟨ticker, hticker, hrow⟩
    obtain ⟨rfl, hcurrent, hscanned, hclassified⟩ := qualify_eq_some.1 hrow
    exact ⟨⟨tickers, htickers, mem_eligibleMarket.1 hticker⟩, hclassified, hcurrent, hscanned⟩
  · rintro ⟨⟨tickers', htickers', hlast⟩, hclassified, hcurrent, hscanned⟩
    obtain rfl := Except.ok.inj (htickers.symm.trans htickers')
    exact ⟨row.toMarketRow, mem_eligibleMarket.2 hlast,
      qualify_eq_some.2 ⟨rfl, hcurrent, hscanned, hclassified⟩⟩

theorem rankRows_perm (log1p : ℚ → ℚ) (rows : List Qualified) :
    (rankRows log1p rows).Perm
      (rows.map fun row => ⟨row, rankScore log1p (maxTurnover rows) row⟩) := sortBy_perm ..

/-- What a scan selects: the first of the ranked rows. -/
theorem scan_eq_ok {body : Body Watchlist} (h : scan log1p cfg answers timestamp = .ok body) :
    ∃ all : List Qualified, (∀ row, row ∈ all ↔ Qualifies cfg answers timestamp row) ∧
      (all.map (·.symbol)).Nodup ∧
      body.content.rows = (rankRows log1p all).take cfg.watchlistSize.toNat ∧
      body.content.symbols = body.content.rows.map (·.symbol) ∧
      body.candleTime = some (targetOpenMs .sixty timestamp) := by
  obtain ⟨tickers, htickers, h⟩ := bind_eq_ok.1 h
  dsimp only at h
  split at h
  · cases h
  obtain ⟨all, hall, h⟩ := bind_eq_ok.1 h
  obtain rfl := pure_eq_ok.1 h
  refine ⟨all, fun row => mem_qualifyAll_iff htickers hall, ?_, rfl, rfl, rfl⟩
  have hsublist := (qualifyAll_sublist hall).map (·.symbol)
  rw [List.map_map] at hsublist
  exact hsublist.nodup (nodup_eligibleMarket cfg tickers)

/-- The rows of a scan are the first of the ranked rows; each of them qualifies, once for a
    symbol. -/
theorem scan_rows {body : Body Watchlist} (h : scan log1p cfg answers timestamp = .ok body) :
    ∃ all : List Qualified, (∀ row, row ∈ all ↔ Qualifies cfg answers timestamp row) ∧
      body.content.rows = (rankRows log1p all).take cfg.watchlistSize.toNat ∧
      (∀ row ∈ body.content.rows, Qualifies cfg answers timestamp row.toQualified ∧
        row.rankScore = rankScore log1p (maxTurnover all) row.toQualified) ∧
      (body.content.rows.map (·.symbol)).Nodup := by
  obtain ⟨all, hall, hnodup, hrows, -, -⟩ := scan_eq_ok h
  have hperm := rankRows_perm log1p all
  refine ⟨all, hall, hrows, fun row hrow => ?_, ?_⟩
  · rw [hrows] at hrow
    obtain ⟨q, hq, rfl⟩ := List.mem_map.1 (hperm.mem_iff.1 (List.mem_of_mem_take hrow))
    exact ⟨(hall _).1 hq, rfl⟩
  · rw [hrows]
    have hsymbols : ((rankRows log1p all).map (·.symbol)).Perm (all.map (·.symbol)) := by
      simpa [List.map_map, Function.comp_def] using hperm.map (·.symbol)
    exact ((List.take_sublist _ _).map _).nodup (hsymbols.nodup_iff.2 hnodup)

/-- Rising candles, from a time in seconds on. -/
def exampleBars (first step : ℤ) (n : ℕ) : List Accuracy.Bar :=
  (List.range n).map fun i : ℕ =>
    ⟨(first + i * step) * 1000, 100 + i, 102 + i, 99 + i, 101 + i, 1⟩

/-- The scan of a market with one symbol, whose price rises. -/
def exampleWatch : WatchBuild where
  env := ⟨none, none, none, none⟩
  answers := {
    tickers := .ok [⟨"BTCUSDT", some 100, some 20000000, some 0, some 100, some 100⟩]
    candles := fun _ => .ok (exampleBars 144000 3600 60) }
  saving := ⟨true, true, true⟩

end IntradayBot.Setup
