import IntradayBot.Data.PyValue
import IntradayBot.Data.SortBy
import IntradayBot.Replay.Frozen

/-!
# The collector of candles

A request for a range of candles is aligned with the times at which they open (`syncRequest`). The
collector asks the exchange for this range page by page (`Collector.runPages`): the exchange answers
with the newest candles up to a time, and the next page ends before the oldest one of them. What a
page has is parsed (`parseKlinePage`), and handed on, but for the candles that have been already.

What is stored is counted again, in chunks, to see whether the range is complete
(`cachedRangeStatus`).
-/

namespace IntradayBot.Replay

open PyText

/-- The exceptions of the collector. -/
inductive CollectorError
  /-- `ReplayCollectorValidationError` -/
  | validation (message : String)
  /-- `ReplayCollectorTransportError` -/
  | transport (message : String)
  /-- `ReplayCollectorTransportError`, of an answer whose `retCode` is not zero: its message has this
      code, and what the answer says. -/
  | refused (retCode : ℤ) (retMsg : Option Json)
  /-- `OverflowError`, of an infinite time. -/
  | overflow
  /-- An exception of the storage. -/
  | storage (e : ReplayError)

/-! ## Requests -/

/-- A request, aligned with the candles. -/
structure SyncRequest where
  symbol : String
  timeframe : Timeframe
  startTime : ℤ
  endTime : ℤ
  lastClosedOpenTime : ℤ
  expectedCandles : ℤ
  force : Bool
  deriving DecidableEq

variable (repr : PyValue → String)

/-- `_integer_ms(value, field)` -/
def integerMs (value : PyValue) (field : String) : Except CollectorError ℤ := do
  let result ← match value with
    | .float (.inf _) => throw .overflow
    | value => match PyValue.int? repr value with
      | .ok n => pure n
      | .error _ => throw (.validation s!"{field} must be an integer timestamp in milliseconds.")
  require (1000000000000 ≤ result)
    (.validation s!"{field} must be a Unix timestamp in milliseconds.")
  return result

/-- `re.fullmatch(r"[A-Z0-9]{3,24}USDT", symbol)` -/
def isReplaySymbol (symbol : List Char) : Bool :=
  (7 ≤ symbol.length ∧ symbol.length ≤ 28) && symbol.all (fun c => c.isUpper || c.isDigit) &&
    symbol.drop (symbol.length - 4) = ['U', 'S', 'D', 'T']

/-- `normalize_symbol(value)` -/
def normalizeSymbol (value : PyValue) : Except CollectorError String := do
  let symbol := (stripChars (PyValue.textOrEmpty repr value).toList).map Char.toUpper
  require (isReplaySymbol symbol)
    (.validation "Replay symbol must be an uppercase-compatible USDT contract code.")
  return String.ofList symbol

/-- `normalize_timeframe(value)` -/
def normalizeTimeframe (value : PyValue) : Except CollectorError Timeframe :=
  match strip (PyValue.textOrEmpty repr value) with
  | "5" => .ok .m5
  | "15" => .ok .m15
  | "60" => .ok .m60
  | _ => .error (.validation "Replay timeframe must be one of: 5, 15, 60.")

/-- `_boolean(value, default)` -/
def forced (value : PyValue) (default : Bool) : Except CollectorError Bool :=
  match value with
  | .none => return default
  | .bool b => return b
  | .int n => return n ≠ 0
  | .float x => return x ≠ .finite 0
  | .str s =>
    let normalized := String.ofList ((stripChars s.toList).map Char.toLower)
    if normalized ∈ ["1", "true", "yes", "on"] then return true
    else if normalized ∈ ["0", "false", "no", "off", ""] then return false
    else throw (.validation "force must be a boolean.")
  | _ => throw (.validation "force must be a boolean.")

/-- `normalize_sync_request(payload, now_ms)`, of a dictionary. -/
def syncRequest (payload : PyDict) (now : ℤ) : Except CollectorError SyncRequest := do
  let symbol ← normalizeSymbol repr (payload.get "symbol")
  let timeframe ← normalizeTimeframe repr
    (if PyValue.truthy (payload.get "timeframe") then payload.get "timeframe"
      else payload.get "interval")
  let requestedStart ← integerMs repr (payload.getOr "start_time" (payload.get "startTime"))
    "startTime"
  let requestedEnd ← integerMs repr (payload.getOr "end_time" (payload.get "endTime")) "endTime"
  let (startTime, endTime) ←
    (normalizeSyncRequest timeframe requestedStart requestedEnd now).mapError fun
      | .validation message => .validation message
      | e => .storage e
  let force ← forced (payload.get "force") false
  return {
    symbol, timeframe, startTime, endTime, force
    lastClosedOpenTime :=
      now / timeframe.intervalMs * timeframe.intervalMs - timeframe.intervalMs
    expectedCandles := (endTime - startTime) / timeframe.intervalMs + 1 }

/-! ## Pages -/

/-- The query of a page. -/
structure KlineParams where
  category : String
  symbol : String
  interval : Timeframe
  start : ℤ
  finish : ℤ
  limit : ℕ

/-- `transport.get_kline(params)`, where it is called the n-th time. -/
abbrev Transport := ℕ → KlineParams → Except CollectorError Json

/-- `int(value)`, of a value of an answer; `none` where it raises. -/
def intOfJson : Json → Option ℤ
  | .bool b => some (if b then 1 else 0)
  | .num q => some (q.num.tdiv q.den)
  | .str s => PyValue.intOfText s
  | .null | .arr _ | .obj _ => none

/-- `_ret_code(payload)` -/
def retCode (payload : Json) : ℤ := ((payload.get "retCode").bind intOfJson).getD (-1)

/-- `raw_rows` -/
def rawRows : Json → Except CollectorError (List Json)
  | .obj fields => do
    let payload := Json.obj fields
    require (retCode payload = 0) (.refused (retCode payload) (payload.get "retMsg"))
    match (payload.get "result").bind (·.get "list") with
    | none | some .null => throw (.transport "Bybit public kline result list is missing.")
    | some (.arr rows) => return rows
    | some _ => throw (.transport "Bybit public kline result list is invalid.")
  | _ => .error (.transport "Bybit public kline response was invalid.")

/-- `open_time`, of a row that has all its columns. -/
def rawOpenTime : Json → Except CollectorError ℤ
  | .arr (time :: _ :: _ :: _ :: _ :: _ :: _ :: _) => match intOfJson time with
    | some openTime => .ok openTime
    | none => .error (.transport "Bybit returned an invalid kline timestamp.")
  | _ => .error (.transport "Bybit returned a malformed kline row.")

/-- `normalize_replay_candle({…})`, of a row. -/
def rawCandle (openTime : ℤ) : Json → Except CollectorError Candle
  | .arr (_ :: openPrice :: high :: low :: close :: volume :: turnover :: _) =>
    (normalizeReplayCandle openTime (.obj [("open", openPrice), ("high", high), ("low", low),
      ("close", close), ("volume", volume), ("turnover", turnover),
      ("source", .str "bybit_main_public_kline")])).mapError fun _ =>
        .transport "Bybit returned invalid OHLCV candle data."
  | _ => .error (.transport "Bybit returned a malformed kline row.")

/-- A row of a page, if it is in the range. -/
def parseRow (request : SyncRequest) (raw : Json) : Except CollectorError (Option Candle) := do
  let openTime ← rawOpenTime raw
  if openTime < request.startTime ∨ request.endTime < openTime ∨
      request.lastClosedOpenTime < openTime then return none
  else
    require (openTime % request.timeframe.intervalMs = 0)
      (.transport "Bybit returned a misaligned kline timestamp.")
    return some (← rawCandle openTime raw)

/-- `rows_by_time` -/
def rowsByTime (request : SyncRequest) (rows : List Json) :
    Except CollectorError (OrdMap ℤ Candle) :=
  rows.foldlM (fun byTime raw => do
    match ← parseRow request raw with
    | none => return byTime
    | some candle => return byTime.set candle.openTime candle) ∅

/-- `parse_kline_page(payload, request)` -/
def parseKlinePage (payload : Json) (request : SyncRequest) :
    Except CollectorError (List Candle × ℕ) := do
  let rows ← rawRows payload
  let byTime ← rowsByTime request rows
  return (sortBy (·.openTime) byTime.values, rows.length)

/-! ## The collector -/

/-- `KLINE_PAGE_LIMIT` -/
def KLINE_PAGE_LIMIT : ℕ := 1000

/-- `HistoricalKlineCollector`, whose limits are bounded. -/
structure Collector where
  pageLimit : ℕ
  maxPages : ℕ
  pageLimit_pos : 0 < pageLimit
  pageLimit_le : pageLimit ≤ KLINE_PAGE_LIMIT
  maxPages_pos : 0 < maxPages
  maxPages_le : maxPages ≤ 1000

/-- `HistoricalKlineCollector(store, page_limit=, max_pages=)` -/
def Collector.ofLimits (pageLimit maxPages : ℤ) : Collector where
  pageLimit := (max 1 (min (KLINE_PAGE_LIMIT : ℤ) pageLimit)).toNat
  maxPages := (max 1 (min 1000 maxPages)).toNat
  pageLimit_pos := by omega
  pageLimit_le := by
    rw [KLINE_PAGE_LIMIT]
    omega
  maxPages_pos := by omega
  maxPages_le := by omega

/-- What `_run_pages` returns. -/
structure PageStats where
  pages : ℕ
  fetchedCandles : ℕ
  duplicatesDropped : ℕ
  rawRows : ℕ

/-- Where a run is. -/
structure Paging where
  cursorEnd : ℤ
  seen : List ℤ
  stats : PageStats

/-- The computations of a collector: `on_page` has effects on a state, and may raise. -/
abbrev CollectM (σ : Type) := ExceptT CollectorError (StateM σ)

/-- The error of a run that has fetched as many pages as it may. -/
def pageLimitError : CollectorError :=
  .transport "Historical kline pagination exceeded the configured page safety limit."

variable {σ : Type}

/-- `raw_times` -/
def rawTimes (rows : List Json) : Except CollectorError (List ℤ) :=
  (rows.filterMap fun
    | .arr (time :: _) => some time
    | _ => none).mapM fun time => match intOfJson time with
      | some openTime => .ok openTime
      | none => .error (.transport "Bybit returned an invalid pagination timestamp.")

/-- `if fresh_rows: on_page(fresh_rows)` -/
def handOn (onPage : List Candle → CollectM σ Unit) (freshRows : List Candle) : CollectM σ Unit :=
  if freshRows ≠ [] then onPage freshRows else pure ()

/-- The loop of `_run_pages(request, on_page)`, which may still fetch this many pages. -/
def Collector.pagesFrom (c : Collector) (transport : Transport) (request : SyncRequest)
    (onPage : List Candle → CollectM σ Unit) : ℕ → Paging → CollectM σ PageStats
  | left, paging =>
    if request.startTime ≤ paging.cursorEnd then match left with
      | 0 => throw pageLimitError
      | left + 1 => do
        let payload ← liftExcept (transport paging.stats.pages {
          category := "linear"
          symbol := request.symbol
          interval := request.timeframe
          start := request.startTime
          finish := paging.cursorEnd
          limit := c.pageLimit })
        let (rows, rawCount) ← liftExcept
          (parseKlinePage payload { request with endTime := paging.cursorEnd })
        let stats := { paging.stats with
          pages := paging.stats.pages + 1
          rawRows := paging.stats.rawRows + rawCount }
        if rawCount = 0 then return stats
        else
          -- no time is twice in a page
          let freshRows := rows.filter (·.openTime ∉ paging.seen)
          let stats := { stats with
            fetchedCandles := stats.fetchedCandles + freshRows.length
            duplicatesDropped := stats.duplicatesDropped + (rows.length - freshRows.length) }
          handOn onPage freshRows
          let times ← liftExcept (rawRows payload >>= rawTimes)
          match times.min? with
          | none => return stats
          | some oldest =>
            if oldest ≤ request.startTime ∨ rawCount < c.pageLimit then return stats
            else
              let nextEnd := oldest - request.timeframe.intervalMs
              if paging.cursorEnd ≤ nextEnd then
                throw (.transport "Historical kline pagination made no backward progress.")
              else pagesFrom c transport request onPage left {
                cursorEnd := nextEnd
                seen := paging.seen ++ freshRows.map (·.openTime)
                stats := stats }
    else return paging.stats
where
  liftExcept {α : Type} (x : Except CollectorError α) : CollectM σ α := liftM x

/-- `_run_pages(request, on_page)` -/
def Collector.runPages (c : Collector) (transport : Transport) (request : SyncRequest)
    (onPage : List Candle → CollectM σ Unit) : CollectM σ PageStats :=
  c.pagesFrom transport request onPage c.maxPages ⟨request.endTime, [], ⟨0, 0, 0, 0⟩⟩

/-! ## The store -/

/-- `CACHE_READ_CHUNK` -/
def CACHE_READ_CHUNK : ℤ := 10000

/-- `upsert_replay_candles(candles)` -/
def CandleTable.upsertReplayCandles (t : CandleTable) (candles : List Candle) :
    Except ReplayError CandleTable := candles.foldlM upsertReplayCandle t

/-- `get_replay_candles(symbol, timeframe, start_time, end_time, limit)` -/
def CandleTable.getReplayCandles (t : CandleTable) (startTime endTime limit : ℤ) :
    Except ReplayError (List Candle) := do
  require (1 ≤ startTime) (.validation "start_time must be at least 1.")
  require (1 ≤ endTime) (.validation "end_time must be at least 1.")
  require (startTime ≤ endTime) (.validation "end_time cannot precede start_time.")
  return (t.between startTime endTime).rows.take (max 1 (min 10000 limit)).toNat

/-- `persist(rows)`, of `sync(payload)` -/
def persist (rows : List Candle) : CollectM CandleTable Unit := do
  match (← get).upsertReplayCandles rows with
  | .ok store => set store
  | .error e => throw (.storage e)

/-- What `cached_range_status` returns. -/
structure RangeStatus where
  complete : Bool
  expectedCandles : ℤ
  cachedCandles : ℕ
  missingCandles : ℕ
  startTime : ℤ
  endTime : ℤ

/-- `range(first, last + 1, step)` -/
def timesBetween (first last step : ℤ) : List ℤ := grid first step ((last - first) / step + 1).toNat

/-- `cached_total` and `missing_total`, from this cursor on. -/
def cachedAndMissing (store : CandleTable) (request : SyncRequest) (cursor : ℤ)
    (cached missing : ℕ) : Except ReplayError (ℕ × ℕ) :=
  if cursor ≤ request.endTime then do
    let interval := request.timeframe.intervalMs
    let chunkEnd := min request.endTime (cursor + (CACHE_READ_CHUNK - 1) * interval)
    let expectedTimes := timesBetween cursor chunkEnd interval
    let rows ← store.getReplayCandles cursor chunkEnd CACHE_READ_CHUNK
    let actualTimes := rows.map (·.openTime)
    cachedAndMissing store request (chunkEnd + interval)
      (cached + (expectedTimes.filter (· ∈ actualTimes)).length)
      (missing + (expectedTimes.filter (· ∉ actualTimes)).length)
  else return (cached, missing)
termination_by (request.endTime + request.timeframe.intervalMs - cursor).toNat
decreasing_by
  have hpos := request.timeframe.intervalMs_pos
  have hchunk : 0 ≤ (CACHE_READ_CHUNK - 1) * request.timeframe.intervalMs :=
    mul_nonneg (by decide) hpos.le
  omega

/-- `cached_range_status(store, request)` -/
def cachedRangeStatus (store : CandleTable) (request : SyncRequest) :
    Except ReplayError RangeStatus := do
  let (cached, missing) ← cachedAndMissing store request request.startTime 0 0
  return {
    complete := missing = 0 ∧ (cached : ℤ) = request.expectedCandles
    expectedCandles := request.expectedCandles
    cachedCandles := cached
    missingCandles := missing
    startTime := request.startTime
    endTime := request.endTime }

end IntradayBot.Replay
