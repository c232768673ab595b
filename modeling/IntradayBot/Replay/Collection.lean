import IntradayBot.Data.Pages
import IntradayBot.Replay.Collector

/-!
# What is collected

An exchange that has candles (`Exchange`) answers the query of a page with the newest ones up to a
time. A run of the collector hands on each of the candles of its range once, from the newest page to
the oldest one. It only fails if the range has more candles than the pages that it may fetch can
have, and then it has handed on the newest ones (`runPages_record`).

Whatever the answers are, what is stored lies on the grid of the timeframe (`Collected`), and the
chunks in which it is counted again miss nothing (`cachedRangeStatus_eq`).
-/

namespace IntradayBot.Replay

variable {σ α β : Type} {tf : Timeframe}

/-! ## The computations of a collector -/

namespace CollectM

/-- The result of a computation, and the state after it. -/
def runOn (x : CollectM σ α) (s : σ) : Except CollectorError α × σ := x.run.run s

theorem runOn_pure (a : α) (s : σ) : (pure a : CollectM σ α).runOn s = (.ok a, s) := rfl

theorem runOn_throw (e : CollectorError) (s : σ) :
    (throw e : CollectM σ α).runOn s = (.error e, s) := rfl

theorem runOn_lift (x : Except CollectorError α) (s : σ) :
    (Collector.pagesFrom.liftExcept x : CollectM σ α).runOn s = (x, s) := by
  cases x <;> rfl

theorem runOn_lift_ok {x : Except CollectorError α} {a : α} (h : x = .ok a) (s : σ) :
    (Collector.pagesFrom.liftExcept x : CollectM σ α).runOn s = (.ok a, s) := by
  rw [runOn_lift, h]

section

variable {x : CollectM σ α} (f : α → CollectM σ β) {s s' : σ}

theorem run_bind : (x >>= f).run.run s = (x.run >>= ExceptT.bindCont f).run s := rfl

theorem runOn_bind_ok {a : α} (h : x.runOn s = (.ok a, s')) :
    (x >>= f).runOn s = (f a).runOn s' := by
  have hx : x.run.run s = pure (.ok a, s') := h
  rw [runOn, run_bind, StateT.run_bind, hx]
  rfl

theorem runOn_bind_error {e : CollectorError} (h : x.runOn s = (.error e, s')) :
    (x >>= f).runOn s = (.error e, s') := by
  have hx : x.run.run s = pure (.error e, s') := h
  rw [runOn, run_bind, StateT.run_bind, hx]
  rfl

end

/-- A property of the state that a computation keeps. -/
def Keeps (P : σ → Prop) (x : CollectM σ α) : Prop := ∀ s, P s → P (x.runOn s).2

variable {P : σ → Prop}

theorem keeps_pure (a : α) : Keeps P (pure a) := fun _ h => h

theorem keeps_throw (e : CollectorError) : Keeps P (throw e : CollectM σ α) := fun _ h => h

theorem Keeps.bind {x : CollectM σ α} {f : α → CollectM σ β} (hx : Keeps P x)
    (hf : ∀ a, Keeps P (f a)) : Keeps P (x >>= f) := by
  intro s hs
  have hs' := hx s hs
  rcases h : x.runOn s with ⟨e | a, s'⟩
  · rw [h] at hs'
    rw [runOn_bind_error f h]
    exact hs'
  · rw [h] at hs'
    rw [runOn_bind_ok f h]
    exact hf a s' hs'

theorem Keeps.bind_lift {x : Except CollectorError α} {f : α → CollectM σ β}
    (hf : ∀ a, x = .ok a → Keeps P (f a)) :
    Keeps P (Collector.pagesFrom.liftExcept x >>= f) := by
  intro s hs
  rcases x with e | a
  · rw [runOn_bind_error f (runOn_lift _ s)]
    exact hs
  · rw [runOn_bind_ok f (runOn_lift _ s)]
    exact hf a rfl s hs

end CollectM

/-! ## Candles on the grid -/

/-- The candles open at times of the timeframe. -/
def Gridded (tf : Timeframe) (candles : List Candle) : Prop :=
  ∀ c ∈ candles, tf.intervalMs ∣ c.openTime

theorem normalizeReplayCandle_openTime {openTime : ℤ} {payload : Json} {candle : Candle}
    (h : normalizeReplayCandle openTime payload = .ok candle) : candle.openTime = openTime := by
  simp only [normalizeReplayCandle, bind_eq_ok, pure_eq_ok] at h
  obtain ⟨_, -, _, -, _, -, _, -, _, -, _, -, _, -, _, -, _, -, _, -, rfl⟩ := h
  rfl

theorem rawCandle_openTime {openTime : ℤ} {raw : Json} {candle : Candle}
    (h : rawCandle openTime raw = .ok candle) : candle.openTime = openTime := by
  unfold rawCandle at h
  split at h
  · exact normalizeReplayCandle_openTime (mapError_eq_ok.1 h)
  · cases h

theorem parseRow_gridded {request : SyncRequest} {raw : Json} {candle : Candle}
    (h : parseRow request raw = .ok (some candle)) :
    request.timeframe.intervalMs ∣ candle.openTime := by
  simp only [parseRow, bind_eq_ok] at h
  obtain ⟨openTime, -, h⟩ := h
  split at h
  · cases h
  · simp only [bind_eq_ok, require_eq_ok, pure_eq_ok] at h
    obtain ⟨-, haligned, _, hcandle, heq⟩ := h
    obtain rfl := Option.some.inj heq
    rw [rawCandle_openTime hcandle]
    exact Int.dvd_of_emod_eq_zero haligned

theorem rowsByTime_gridded {request : SyncRequest} {rows : List Json} {byTime : OrdMap ℤ Candle}
    (h : rowsByTime request rows = .ok byTime) : Gridded request.timeframe byTime.values := by
  have hempty : Gridded request.timeframe (∅ : OrdMap ℤ Candle).values :=
    fun _ hc => absurd hc List.not_mem_nil
  rw [rowsByTime] at h
  generalize (∅ : OrdMap ℤ Candle) = m at h hempty
  induction rows generalizing m with
  | nil =>
    obtain rfl := pure_eq_ok.1 h
    exact hempty
  | cons raw rows ih =>
    simp only [List.foldlM_cons, bind_eq_ok] at h
    obtain ⟨m', ⟨candle, hrow, hm'⟩, h⟩ := h
    rcases candle with _ | candle
    · obtain rfl := pure_eq_ok.1 hm'
      exact ih _ h hempty
    · obtain rfl := pure_eq_ok.1 hm'
      refine ih _ h fun c hc => ?_
      obtain ⟨k, hk⟩ := OrdMap.mem_values.1 hc
      rw [OrdMap.get?_set] at hk
      split at hk
      · obtain rfl := Option.some.inj hk
        exact parseRow_gridded hrow
      · exact hempty c (OrdMap.mem_values.2 ⟨k, hk⟩)

theorem parseKlinePage_gridded {request : SyncRequest} {payload : Json} {page : List Candle × ℕ}
    (h : parseKlinePage payload request = .ok page) : Gridded request.timeframe page.1 := by
  simp only [parseKlinePage, bind_eq_ok, pure_eq_ok] at h
  obtain ⟨_, -, byTime, hbyTime, rfl⟩ := h
  exact fun c hc => rowsByTime_gridded hbyTime c ((sortBy_perm _ _).mem_iff.1 hc)

/-- A run keeps what `on_page` keeps of a state, for pages on the grid. -/
theorem Collector.pagesFrom_keeps {P : σ → Prop} {onPage : List Candle → CollectM σ Unit}
    {request : SyncRequest}
    (h : ∀ rows, Gridded request.timeframe rows → CollectM.Keeps P (onPage rows))
    (c : Collector) (transport : Transport) (left : ℕ) (paging : Paging) :
    CollectM.Keeps P (c.pagesFrom transport request onPage left paging) := by
  induction left generalizing paging with
  | zero =>
    unfold pagesFrom
    split
    · exact CollectM.keeps_throw _
    · exact CollectM.keeps_pure _
  | succ left ih =>
    unfold pagesFrom
    split
    · -- Only `onPage` touches the store, and what it is handed was parsed on the grid.
      refine .bind_lift fun payload _ => .bind_lift fun page hpage => ?_
      obtain ⟨rows, rawCount⟩ := page
      have hgrid := parseKlinePage_gridded hpage
      dsimp only
      split
      · exact CollectM.keeps_pure _
      · have hfresh : Gridded request.timeframe (rows.filter (·.openTime ∉ paging.seen)) :=
          fun c hc => hgrid c (List.mem_of_mem_filter hc)
        refine .bind ?_ fun _ => .bind_lift fun times _ => ?_
        · unfold handOn
          split
          · exact h _ hfresh
          · exact CollectM.keeps_pure _
        · split
          · exact CollectM.keeps_pure _
          · split
            · exact CollectM.keeps_pure _
            · split
              · exact CollectM.keeps_throw _
              · exact ih _
    · exact CollectM.keeps_pure _

/-! ## The exchange -/

/-- A valid candle of the exchange, with the row that says what it is. -/
structure Kline (tf : Timeframe) where
  raw : Json
  candle : Candle
  time : rawOpenTime raw = .ok candle.openTime
  valid : rawCandle candle.openTime raw = .ok candle
  aligned : tf.intervalMs ∣ candle.openTime

/-- The time at which a candle opens. -/
abbrev Kline.openTime (k : Kline tf) : ℤ := k.candle.openTime

/-- The candles of a symbol, from the newest one on. -/
structure Exchange (tf : Timeframe) where
  klines : List (Kline tf)
  descending : klines.Pairwise fun k l => l.openTime < k.openTime

namespace Exchange

variable (x : Exchange tf) {first last : ℤ}

/-- The candles in a window. -/
def available (first last : ℤ) : List (Kline tf) :=
  x.klines.filter fun k => first ≤ k.openTime ∧ k.openTime ≤ last

/-- Queries are answered with the newest candles in their window, as many as they may have. -/
def Answers (symbol : String) (transport : Transport) : Prop :=
  ∀ n params, params.symbol = symbol → params.interval = tf → ∃ payload,
    transport n params = .ok payload ∧ rawRows payload =
      .ok (((x.available params.start params.finish).take params.limit).map (·.raw))

variable {x}

theorem available_descending :
    (x.available first last).Pairwise fun k l => l.openTime < k.openTime :=
  x.descending.filter _

theorem mem_available {k : Kline tf} :
    k ∈ x.available first last ↔ k ∈ x.klines ∧ first ≤ k.openTime ∧ k.openTime ≤ last := by
  simp [available]

theorem available_of_lt (h : last < first) : x.available first last = [] := by
  rw [List.eq_nil_iff_forall_not_mem]
  intro k hk
  obtain ⟨-, hfirst, hlast⟩ := mem_available.1 hk
  exact absurd (hfirst.trans hlast) h.not_ge

/-- The window of the next page has what the page has left. -/
theorem available_oldest {limit : ℕ} {oldest : Kline tf}
    (h : ((x.available first last).take limit).getLast? = some oldest) :
    x.available first (oldest.openTime - tf.intervalMs) =
      (x.available first last).drop limit := by
  set key : Kline tf → ℤᵒᵈ := fun k => OrderDual.toDual k.openTime
  have hordered : Ordered key (x.available first last) := available_descending
  have hall : after key none (x.available first last) = x.available first last := after_none
  have hlast : ((after key none (x.available first last)).take limit).getLast? = some oldest := by
    rw [hall, h]
  have hrest := after_getLast? hordered hlast
  rw [hall] at hrest
  rw [← hrest, after, available, available, List.filter_filter]
  refine List.filter_congr fun k _ => ?_
  have hmem := (mem_available.1 (List.mem_of_mem_take (List.mem_of_getLast? h))).2
  have hlt : key oldest < key k ↔ k.openTime ≤ oldest.openTime - tf.intervalMs :=
    lt_iff_le_sub tf.intervalMs_pos k.aligned oldest.aligned
  have hpos := tf.intervalMs_pos
  simp only [Option.all_some, hlt]
  grind

end Exchange

/-! ## A page of the exchange -/

section

variable {request : SyncRequest} {k : Kline request.timeframe}
  {rows : List (Kline request.timeframe)}

/-- A candle is in the range of a request. -/
def SyncRequest.Has (request : SyncRequest) (openTime : ℤ) : Prop :=
  request.startTime ≤ openTime ∧ openTime ≤ request.endTime ∧ openTime ≤ request.lastClosedOpenTime

theorem parseRow_kline (h : request.Has k.openTime) :
    parseRow request k.raw = .ok (some k.candle) := by
  obtain ⟨hstart, hend, hclosed⟩ := h
  have haligned : k.openTime % request.timeframe.intervalMs = 0 :=
    Int.emod_eq_zero_of_dvd k.aligned
  simp only [parseRow, bind_eq_ok]
  refine ⟨_, k.time, ?_⟩
  rw [if_neg (not_or.2 ⟨hstart.not_gt, not_or.2 ⟨hend.not_gt, hclosed.not_gt⟩⟩)]
  simp only [bind_eq_ok, require_eq_ok, pure_eq_ok]
  exact ⟨(), haligned, _, k.valid, rfl⟩

theorem rowsByTime_klines (h : ∀ k ∈ rows, request.Has k.openTime)
    (hnodup : (rows.map (·.openTime)).Nodup) : ∃ byTime,
      rowsByTime request (rows.map (·.raw)) = .ok byTime ∧
        byTime.values = rows.map (·.candle) := by
  have hempty : rows.map (·.candle) = (∅ : OrdMap ℤ Candle).values ++ rows.map (·.candle) := rfl
  have hkeys : ∀ k ∈ rows, k.openTime ∉ (∅ : OrdMap ℤ Candle).entries.map Prod.fst :=
    fun _ _ => List.not_mem_nil
  rw [rowsByTime, hempty]
  -- Over any map that has none of the times: each row is new and goes to the end.
  generalize (∅ : OrdMap ℤ Candle) = m at hkeys
  clear hempty
  induction rows generalizing m with
  | nil => exact ⟨m, rfl, (List.append_nil _).symm⟩
  | cons k rows ih =>
    rw [List.map_cons, List.nodup_cons] at hnodup
    have hput : (m.set k.openTime k.candle).entries = m.entries ++ [(k.openTime, k.candle)] :=
      OrdMap.put_of_notMem (hkeys k List.mem_cons_self)
    obtain ⟨byTime, hbyTime, hvalues⟩ := ih (fun l hl => h l (List.mem_cons_of_mem _ hl)) hnodup.2
      (m.set k.openTime k.candle) fun l hl => by
        rw [hput, List.map_append, List.mem_append, List.map_cons, List.map_nil,
          List.mem_singleton]
        rintro (hm | heq)
        · exact hkeys l (List.mem_cons_of_mem _ hl) hm
        · have heq : l.openTime = k.openTime := heq
          exact hnodup.1 (heq ▸ List.mem_map_of_mem hl)
    refine ⟨byTime, ?_, ?_⟩
    · simp only [List.map_cons, List.foldlM_cons, bind_eq_ok]
      exact ⟨_, ⟨_, parseRow_kline (h k List.mem_cons_self), rfl⟩, hbyTime⟩
    · rw [hvalues, OrdMap.values, hput, OrdMap.values]
      simp

/-- A page has its candles from the oldest one on. -/
theorem parseKlinePage_klines {payload : Json} (hpayload : rawRows payload = .ok (rows.map (·.raw)))
    (h : ∀ k ∈ rows, request.Has k.openTime)
    (hdescending : rows.Pairwise fun k l => l.openTime < k.openTime) :
    parseKlinePage payload request = .ok ((rows.map (·.candle)).reverse, rows.length) := by
  have hnodup : (rows.map (·.openTime)).Nodup :=
    List.pairwise_map.2 (hdescending.imp fun hlt => hlt.ne')
  obtain ⟨byTime, hbyTime, hvalues⟩ := rowsByTime_klines h hnodup
  have hsorted : sortBy (·.openTime) byTime.values = (rows.map (·.candle)).reverse := by
    rw [hvalues]
    refine sortBy_eq_of_perm (List.reverse_perm _).symm ?_
    rw [List.pairwise_reverse, List.pairwise_map]
    exact hdescending
  simp only [parseKlinePage, bind_eq_ok, pure_eq_ok]
  exact ⟨_, hpayload, _, hbyTime, by rw [hsorted, List.length_map]⟩

theorem rawOpenTime_eq_ok {raw : Json} {openTime : ℤ} (h : rawOpenTime raw = .ok openTime) :
    ∃ time rest, raw = .arr (time :: rest) ∧ intOfJson time = some openTime := by
  unfold rawOpenTime at h
  split at h
  · rename_i time _ _ _ _ _ _ _
    split at h
    · rename_i htime
      obtain rfl := Except.ok.inj h
      exact ⟨time, _, rfl, htime⟩
    · cases h
  · cases h

theorem rawTimes_klines (rows : List (Kline request.timeframe)) :
    rawTimes (rows.map (·.raw)) = .ok (rows.map (·.openTime)) := by
  rw [rawTimes, mapM_eq_ok]
  induction rows with
  | nil => exact .nil
  | cons k rows ih =>
    obtain ⟨time, rest, hraw, htime⟩ := rawOpenTime_eq_ok k.time
    rw [List.map_cons, List.map_cons, hraw]
    refine .cons ?_ ih
    rw [htime]

/-- The oldest time of a page. -/
theorem min?_klines (hdescending : rows.Pairwise fun k l => l.openTime < k.openTime)
    {oldest : Kline request.timeframe} (holdest : rows.getLast? = some oldest) :
    (rows.map (·.openTime)).min? = some oldest.openTime := by
  obtain ⟨front, rfl⟩ := List.getLast?_eq_some_iff.1 holdest
  obtain ⟨-, -, hfront⟩ := List.pairwise_append.1 hdescending
  rw [List.min?_eq_some_iff]
  refine ⟨List.mem_map_of_mem (by simp), fun t ht => ?_⟩
  obtain ⟨k, hk, rfl⟩ := List.mem_map.1 ht
  rcases List.mem_append.1 hk with hk | hk
  · exact (hfront k hk oldest (List.mem_singleton_self _)).le
  · rw [List.mem_singleton.1 hk]

/-- So many candles take so many steps of time. -/
theorem oldest_add_le {last : ℤ} {oldest : Kline request.timeframe}
    (hdescending : rows.Pairwise fun k l => l.openTime < k.openTime)
    (hlast : ∀ k ∈ rows, k.openTime ≤ last) (holdest : rows.getLast? = some oldest) :
    oldest.openTime + (rows.length - 1 : ℤ) * request.timeframe.intervalMs ≤ last := by
  induction rows generalizing last with
  | nil => cases holdest
  | cons k rows ih =>
    obtain ⟨hk, hrows⟩ := List.pairwise_cons.1 hdescending
    have hle := hlast k List.mem_cons_self
    rcases rows with _ | ⟨l, rows⟩
    · obtain rfl := Option.some.inj holdest
      simpa using hle
    · -- the others are a step before the first one
      rw [List.getLast?_cons_cons] at holdest
      have := ih hrows (fun l hl =>
        (lt_iff_le_sub request.timeframe.intervalMs_pos l.aligned k.aligned).1 (hk l hl)) holdest
      rw [List.length_cons, Nat.cast_succ]
      linarith

end

/-! ## A run -/

/-- An `on_page` that records the pages. -/
def recordPage (rows : List Candle) : CollectM (List (List Candle)) Unit := modify (· ++ [rows])

/-- The candles of pages, from the newest page on, and in each page from the newest candle on. -/
def newestFirst (pages : List (List Candle)) : List Candle := (pages.map List.reverse).flatten

/-- What a run hands on that may hand on so many of these candles, and how it ends. -/
structure HandsOn (candles : List Candle) (most : ℕ) (outcome : Except CollectorError PageStats)
    (pages : List (List Candle)) : Prop where
  all : ∀ stats, outcome = .ok stats → newestFirst pages = candles
  newest : ∀ e, outcome = .error e → e = pageLimitError ∧ newestFirst pages = candles.take most

theorem HandsOn.done {candles : List Candle} {stats : PageStats} {most : ℕ}
    {pages : List (List Candle)} (h : newestFirst pages = candles) :
    HandsOn candles most (.ok stats) pages :=
  ⟨fun _ _ => h, fun _ he => absurd he (by simp)⟩

theorem HandsOn.failed {candles : List Candle} : HandsOn candles 0 (.error pageLimitError) [] :=
  ⟨fun _ h => absurd h (by simp), fun _ he => ⟨(Except.error.inj he).symm, rfl⟩⟩

/-- A page before the others. -/
theorem HandsOn.page {rest : List Candle} {most : ℕ}
    {outcome : Except CollectorError PageStats} {pages : List (List Candle)}
    (h : HandsOn rest most outcome pages) (page : List Candle) :
    HandsOn (page ++ rest) (page.length + most) outcome (page.reverse :: pages) where
  all stats hstats := by
    rw [newestFirst, List.map_cons, List.flatten_cons, List.reverse_reverse]
    exact congrArg (page ++ ·) (h.all stats hstats)
  newest e he := by
    obtain ⟨heq, hnewest⟩ := h.newest e he
    refine ⟨heq, ?_⟩
    rw [newestFirst, List.map_cons, List.flatten_cons, List.reverse_reverse,
      List.take_length_add_append]
    exact congrArg (page ++ ·) hnewest

section

variable {c : Collector} {transport : Transport} {request : SyncRequest}
  {x : Exchange request.timeframe}

theorem runOn_handOn {rows : List Candle} (h : rows ≠ []) (before : List (List Candle)) :
    (handOn recordPage rows).runOn before = (.ok (), before ++ [rows]) := by
  rw [handOn, if_pos h]
  rfl

/-- The newest candles up to a time, as the page has them. -/
abbrev Collector.page (c : Collector) (x : Exchange request.timeframe) (cursorEnd : ℤ) :
    List (Kline request.timeframe) := (x.available request.startTime cursorEnd).take c.pageLimit

/-- The counts after one more page, of so many candles. -/
def PageStats.next (stats : PageStats) (candles : ℕ) : PageStats :=
  { stats with
    pages := stats.pages + 1
    fetchedCandles := stats.fetchedCandles + candles
    rawRows := stats.rawRows + candles }

variable {paging : Paging} {oldest : Kline request.timeframe}

/-- The query of a page is answered, and its answer is parsed. -/
theorem exists_page (hx : x.Answers request.symbol transport)
    (hclosed : paging.cursorEnd ≤ request.lastClosedOpenTime) : ∃ payload,
      transport paging.stats.pages {
        category := "linear"
        symbol := request.symbol
        interval := request.timeframe
        start := request.startTime
        finish := paging.cursorEnd
        limit := c.pageLimit } = .ok payload ∧
      parseKlinePage payload { request with endTime := paging.cursorEnd } =
        .ok (((c.page x paging.cursorEnd).map (·.candle)).reverse,
          (c.page x paging.cursorEnd).length) ∧
      (rawRows payload >>= rawTimes) = .ok ((c.page x paging.cursorEnd).map (·.openTime)) := by
  obtain ⟨payload, hpayload, hraw⟩ := hx paging.stats.pages {
    category := "linear"
    symbol := request.symbol
    interval := request.timeframe
    start := request.startTime
    finish := paging.cursorEnd
    limit := c.pageLimit } rfl rfl
  refine ⟨payload, hpayload, ?_, bind_eq_ok.2 ⟨_, hraw, rawTimes_klines _⟩⟩
  -- The page ends at the cursor, which is closed, so none of its rows is still open.
  refine @parseKlinePage_klines { request with endTime := paging.cursorEnd } _ payload hraw
    (fun k hk => ?_) (Exchange.available_descending.sublist (List.take_sublist _ _))
  obtain ⟨-, hfirst, hlast⟩ := Exchange.mem_available.1 (List.mem_of_mem_take hk)
  exact ⟨hfirst, hlast, hlast.trans hclosed⟩

/-- A page without candles is the last one. -/
theorem runOn_noPage (hx : x.Answers request.symbol transport)
    (hclosed : paging.cursorEnd ≤ request.lastClosedOpenTime)
    (hle : request.startTime ≤ paging.cursorEnd) (hnil : c.page x paging.cursorEnd = [])
    (left : ℕ) (before : List (List Candle)) : ∃ stats,
      (c.pagesFrom transport request recordPage (left + 1) paging).runOn before =
        (.ok stats, before) := by
  obtain ⟨payload, hpayload, hparse, -⟩ := exists_page (c := c) hx hclosed
  rw [hnil] at hparse
  unfold Collector.pagesFrom
  rw [if_pos hle, CollectM.runOn_bind_ok _ (CollectM.runOn_lift_ok hpayload _),
    CollectM.runOn_bind_ok _ (CollectM.runOn_lift_ok hparse _)]
  exact ⟨_, rfl⟩

/-- A page with candles is handed on, and the next one ends before its oldest candle. -/
theorem runOn_page (hx : x.Answers request.symbol transport)
    (hclosed : paging.cursorEnd ≤ request.lastClosedOpenTime)
    (hle : request.startTime ≤ paging.cursorEnd)
    (hseen : ∀ k ∈ x.available request.startTime paging.cursorEnd, k.openTime ∉ paging.seen)
    (holdest : (c.page x paging.cursorEnd).getLast? = some oldest)
    (left : ℕ) (before : List (List Candle)) :
      let stats := paging.stats.next (c.page x paging.cursorEnd).length
      (c.pagesFrom transport request recordPage (left + 1) paging).runOn before =
        (if oldest.openTime ≤ request.startTime ∨
            (c.page x paging.cursorEnd).length < c.pageLimit then pure stats
          else c.pagesFrom transport request recordPage left {
            cursorEnd := oldest.openTime - request.timeframe.intervalMs
            seen := paging.seen ++ ((c.page x paging.cursorEnd).map (·.candle)).reverse.map
              (·.openTime)
            stats := stats }).runOn
              (before ++ [((c.page x paging.cursorEnd).map (·.candle)).reverse]) := by
  obtain ⟨payload, hpayload, hparse, htimes⟩ := exists_page (c := c) hx hclosed
  have hne : c.page x paging.cursorEnd ≠ [] := fun hnil => by simp [hnil] at holdest
  have hmem := (Exchange.mem_available.1 (List.mem_of_mem_take (List.mem_of_getLast? holdest))).2
  have hpos := request.timeframe.intervalMs_pos
  -- nothing of the page has been handed on before
  have hnew : ((c.page x paging.cursorEnd).map (·.candle)).reverse.filter
      (·.openTime ∉ paging.seen) = ((c.page x paging.cursorEnd).map (·.candle)).reverse := by
    rw [List.filter_eq_self]
    intro candle hcandle
    obtain ⟨k, hk, rfl⟩ := List.mem_map.1 (List.mem_reverse.1 hcandle)
    exact decide_eq_true (hseen k (List.mem_of_mem_take hk))
  have hdescending : (c.page x paging.cursorEnd).Pairwise fun k l => l.openTime < k.openTime :=
    Exchange.available_descending.sublist (List.take_sublist _ _)
  intro stats
  conv_lhs => unfold Collector.pagesFrom
  rw [if_pos hle, CollectM.runOn_bind_ok _ (CollectM.runOn_lift_ok hpayload _),
    CollectM.runOn_bind_ok _ (CollectM.runOn_lift_ok hparse _)]
  dsimp only
  rw [if_neg (List.length_pos_of_ne_nil hne).ne', hnew,
    CollectM.runOn_bind_ok _ (runOn_handOn (by simpa using hne) before),
    CollectM.runOn_bind_ok _ (CollectM.runOn_lift_ok htimes _), min?_klines hdescending holdest]
  dsimp only
  rw [if_neg (show ¬paging.cursorEnd ≤ oldest.openTime - request.timeframe.intervalMs by omega)]
  simp only [List.length_reverse, List.length_map, Nat.sub_self, Nat.add_zero]
  rfl

variable (c transport x) in
/-- What the loop hands on, from here on. It fails if the pages that it may fetch do not have the
    time that is left. -/
def LoopHandsOn (left : ℕ) (paging : Paging) (before : List (List Candle)) : Prop :=
  ∃ outcome pages,
    (c.pagesFrom transport request recordPage left paging).runOn before =
      (outcome, before ++ pages) ∧
    HandsOn ((x.available request.startTime paging.cursorEnd).map (·.candle))
      (c.pageLimit * left) outcome pages ∧
    ∀ e, outcome = .error e → (c.pageLimit * left : ℤ) * request.timeframe.intervalMs ≤
      paging.cursorEnd - request.startTime

theorem LoopHandsOn.ok {left : ℕ} {before pages : List (List Candle)} {stats : PageStats}
    (hrun : (c.pagesFrom transport request recordPage left paging).runOn before =
      (.ok stats, before ++ pages))
    (hpages : newestFirst pages =
      (x.available request.startTime paging.cursorEnd).map (·.candle)) :
    LoopHandsOn c transport x left paging before :=
  ⟨_, _, hrun, .done hpages, fun _ h => absurd h (by simp)⟩

theorem LoopHandsOn.nothing {left : ℕ} {before : List (List Candle)} {stats : PageStats}
    (hrun : (c.pagesFrom transport request recordPage left paging).runOn before =
      (.ok stats, before))
    (hnil : x.available request.startTime paging.cursorEnd = []) :
    LoopHandsOn c transport x left paging before := by
  refine ⟨_, [], by rw [hrun, List.append_nil], ?_, fun _ h => absurd h (by simp)⟩
  rw [hnil]
  exact .done rfl

/-- There is nothing left to fetch. -/
theorem loopHandsOn_of_lt (h : paging.cursorEnd < request.startTime) (left : ℕ)
    (before : List (List Candle)) : LoopHandsOn c transport x left paging before := by
  have hrun : (c.pagesFrom transport request recordPage left paging).runOn before =
      (.ok paging.stats, before) := by
    unfold Collector.pagesFrom
    rw [if_neg h.not_ge, CollectM.runOn_pure]
  exact .nothing hrun (Exchange.available_of_lt h)

theorem loopHandsOn (hx : x.Answers request.symbol transport) (left : ℕ) (paging : Paging)
    (before : List (List Candle)) (hclosed : paging.cursorEnd ≤ request.lastClosedOpenTime)
    (hseen : ∀ k ∈ x.available request.startTime paging.cursorEnd, k.openTime ∉ paging.seen) :
    LoopHandsOn c transport x left paging before := by
  rcases lt_or_ge paging.cursorEnd request.startTime with hlt | hle
  · exact loopHandsOn_of_lt hlt left before
  induction left generalizing paging before with
  | zero =>
    refine ⟨.error pageLimitError, [], ?_, .failed, fun _ _ => by simpa using hle⟩
    unfold Collector.pagesFrom
    rw [if_pos hle, CollectM.runOn_throw, List.append_nil]
  | succ left ih =>
    rcases holdest : (c.page x paging.cursorEnd).getLast? with _ | oldest
    · have hnil : c.page x paging.cursorEnd = [] := List.getLast?_eq_none_iff.1 holdest
      have hrest : x.available request.startTime paging.cursorEnd = [] :=
        (List.take_eq_nil_iff.1 hnil).resolve_left c.pageLimit_pos.ne'
      obtain ⟨stats, hrun⟩ := runOn_noPage hx hclosed hle hnil left before
      exact .nothing hrun hrest
    · have hrun := runOn_page hx hclosed hle hseen holdest left before
      dsimp only at hrun
      have hpos := request.timeframe.intervalMs_pos
      have hnext : oldest.openTime - request.timeframe.intervalMs ≤ paging.cursorEnd := by
        have := (Exchange.mem_available.1 (List.mem_of_mem_take (List.mem_of_getLast? holdest))).2
        omega
      set page := c.page x paging.cursorEnd
      have hrest := Exchange.available_oldest holdest
      have hsplit : page ++ x.available request.startTime
          (oldest.openTime - request.timeframe.intervalMs) =
            x.available request.startTime paging.cursorEnd := by
        rw [hrest, List.take_append_drop]
      have hdescending : page.Pairwise fun k l => l.openTime < k.openTime :=
        Exchange.available_descending.sublist (List.take_sublist _ _)
      by_cases hlast : oldest.openTime ≤ request.startTime ∨ page.length < c.pageLimit
      · -- the page has all that is left
        have hall : page = x.available request.startTime paging.cursorEnd := by
          rcases hlast with hstart | hshort
          · rw [← hsplit, Exchange.available_of_lt (by omega), List.append_nil]
          · exact List.take_of_length_le (by grind)
        rw [if_pos hlast, CollectM.runOn_pure] at hrun
        refine .ok hrun ?_
        rw [← hall]
        simp [newestFirst]
      · rw [if_neg hlast] at hrun
        obtain ⟨hmore, hfull⟩ := not_or.1 hlast
        have hlength : page.length = c.pageLimit :=
          le_antisymm (List.length_take_le _ _) (not_lt.1 hfull)
        -- the pages after this one
        obtain ⟨outcome, pages, hpages, hhands, hroom⟩ :
            LoopHandsOn c transport x left {
              cursorEnd := oldest.openTime - request.timeframe.intervalMs
              seen := paging.seen ++ (page.map (·.candle)).reverse.map (·.openTime)
              stats := paging.stats.next page.length }
                (before ++ [(page.map (·.candle)).reverse]) := by
          rcases lt_or_ge (oldest.openTime - request.timeframe.intervalMs) request.startTime with
            hlt | hle'
          · exact loopHandsOn_of_lt hlt left _
          · refine ih _ _ (hnext.trans hclosed) (fun k hk => ?_) hle'
            have hall := @x.available_descending _ request.startTime paging.cursorEnd
            rw [← hsplit] at hall hseen
            rw [List.mem_append]
            rintro (hold | hpage)
            · exact hseen k (List.mem_append_right _ hk) hold
            · obtain ⟨candle, hcandle, htime⟩ := List.mem_map.1 hpage
              obtain ⟨l, hl, rfl⟩ := List.mem_map.1 (List.mem_reverse.1 hcandle)
              exact ((List.pairwise_append.1 hall).2.2 l hl k hk).ne htime.symm
        refine ⟨outcome, (page.map (·.candle)).reverse :: pages, ?_, ?_, fun e he => ?_⟩
        · rw [hrun, hpages, List.append_assoc]
          rfl
        · have := hhands.page (page.map (·.candle))
          rw [List.length_map, hlength, ← List.map_append, hsplit, Nat.add_comm,
            ← Nat.mul_succ] at this
          exact this
        · have hlast := oldest_add_le hdescending (fun k hk =>
            (Exchange.mem_available.1 (List.mem_of_mem_take hk)).2.2) holdest
          have hroom := hroom e he
          rw [hlength] at hlast
          have hsum : (c.pageLimit * (left + 1 : ℕ) : ℤ) * request.timeframe.intervalMs =
              c.pageLimit * left * request.timeframe.intervalMs +
                (c.pageLimit - 1) * request.timeframe.intervalMs + request.timeframe.intervalMs := by
            push_cast
            ring
          dsimp only at hroom
          linarith

/-- A run hands on every candle of its range once, or as many as its pages can have. -/
theorem runPages_record (hx : x.Answers request.symbol transport)
    (hclosed : request.endTime ≤ request.lastClosedOpenTime) : ∃ outcome pages,
      (c.runPages transport request recordPage).runOn [] = (outcome, pages) ∧
      HandsOn ((x.available request.startTime request.endTime).map (·.candle))
        (c.pageLimit * c.maxPages) outcome pages ∧
      ∀ e, outcome = .error e → (c.pageLimit * c.maxPages : ℤ) <
        (request.endTime - request.startTime) / request.timeframe.intervalMs + 1 := by
  obtain ⟨outcome, pages, hrun, hhands, hroom⟩ :=
    @loopHandsOn c transport request x hx c.maxPages ⟨request.endTime, [], ⟨0, 0, 0, 0⟩⟩ []
      hclosed fun _ _ => List.not_mem_nil
  refine ⟨outcome, pages, hrun, hhands, fun e he => ?_⟩
  rw [Int.lt_add_one_iff, Int.le_ediv_iff_mul_le request.timeframe.intervalMs_pos]
  exact hroom e he

end

/-! ## The store -/

/-- What the collector stores of a symbol and timeframe, whatever the answers to its queries are. -/
inductive Collected (tf : Timeframe) : CandleTable → Prop
  | empty : Collected tf .empty
  | sync {store : CandleTable} {c : Collector} {transport : Transport} {request : SyncRequest} :
    Collected tf store → request.timeframe = tf →
      Collected tf ((c.runPages transport request persist).runOn store).2

theorem Candle.stored_openTime {c stored : Candle} (h : c.stored = .ok stored) :
    stored.openTime = c.openTime := by
  simp only [Candle.stored, bind_eq_ok, pure_eq_ok] at h
  obtain ⟨_, -, _, -, _, -, _, -, _, -, _, -, rfl⟩ := h
  rfl

theorem Gridded.upsertReplayCandles {t t' : CandleTable} {candles : List Candle}
    (ht : Gridded tf t.rows) (hcandles : Gridded tf candles)
    (h : t.upsertReplayCandles candles = .ok t') : Gridded tf t'.rows := by
  rw [CandleTable.upsertReplayCandles] at h
  induction candles generalizing t with
  | nil =>
    obtain rfl := pure_eq_ok.1 h
    exact ht
  | cons c candles ih =>
    simp only [List.foldlM_cons, bind_eq_ok] at h
    obtain ⟨t₁, hupsert, h⟩ := h
    refine ih (fun a ha => ?_) (fun a ha => hcandles a (List.mem_cons_of_mem _ ha)) h
    obtain ⟨stored, hstored, rfl⟩ := map_eq_ok.1 hupsert
    rcases List.mem_append.1 ha with ha | ha
    · exact ht a (List.mem_of_mem_filter ha)
    · rcases List.mem_cons.1 ha with rfl | ha
      · rw [Candle.stored_openTime hstored]
        exact hcandles c List.mem_cons_self
      · exact ht a (List.mem_of_mem_filter ha)

theorem persist_keeps {rows : List Candle} (h : Gridded tf rows) :
    CollectM.Keeps (fun store => Gridded tf store.rows) (persist rows) := by
  intro store hstore
  have hget : (get : CollectM CandleTable CandleTable).runOn store = (.ok store, store) := rfl
  rw [persist, CollectM.runOn_bind_ok _ hget]
  rcases hupsert : store.upsertReplayCandles rows with e | store'
  · exact hstore
  · exact hstore.upsertReplayCandles h hupsert

/-- What is stored is on the grid. -/
theorem Collected.gridded {store : CandleTable} (h : Collected tf store) :
    Gridded tf store.rows := by
  induction h with
  | empty => exact fun _ hc => absurd hc List.not_mem_nil
  | @sync store c transport request _ htf ih =>
    subst htf
    exact c.pagesFrom_keeps (fun rows hrows => persist_keeps hrows) transport c.maxPages _ store ih

/-! ## Counting what is stored -/

section

variable {store : CandleTable} {request : SyncRequest}

/-- A chunk is read as a whole. -/
theorem mem_getReplayCandles (hstore : Gridded request.timeframe store.rows) {first : ℤ} {n : ℕ}
    (hfirst : 1 ≤ first) (haligned : request.timeframe.intervalMs ∣ first) (hn : 0 < n)
    (hchunk : (n : ℤ) ≤ CACHE_READ_CHUNK) : ∃ rows,
      store.getReplayCandles first (first + (n - 1) * request.timeframe.intervalMs)
        CACHE_READ_CHUNK = .ok rows ∧
      ∀ t ∈ grid first request.timeframe.intervalMs n,
        t ∈ rows.map (·.openTime) ↔ t ∈ store.rows.map (·.openTime) := by
  have hpos := request.timeframe.intervalMs_pos
  set last := first + (n - 1) * request.timeframe.intervalMs with hlast
  have hle : first ≤ last := by
    have : 0 ≤ ((n : ℤ) - 1) * request.timeframe.intervalMs := mul_nonneg (by omega) hpos.le
    omega
  -- the times of the chunk are on a grid, which has no more of them than may be read
  have hsub : (store.between first last).rows.map (·.openTime) ⊆
      grid first request.timeframe.intervalMs n := by
    intro t ht
    obtain ⟨c, hc, rfl⟩ := List.mem_map.1 ht
    obtain ⟨hc, hrange⟩ := List.mem_filter.1 hc
    have hrange := of_decide_eq_true hrange
    exact (mem_grid_iff hpos haligned).2 ⟨hstore c hc, hrange.1, hrange.2⟩
  have hnodup : ((store.between first last).rows.map (·.openTime)).Nodup :=
    List.pairwise_map.2 ((store.between first last).sorted.imp fun h => h.ne)
  have hlength := (List.subperm_of_subset hnodup hsub).length_le
  rw [List.length_map, length_grid] at hlength
  refine ⟨(store.between first last).rows, ?_, fun t ht => ?_⟩
  · simp only [CandleTable.getReplayCandles, bind_eq_ok, require_eq_ok, pure_eq_ok]
    refine ⟨(), hfirst, (), hfirst.trans hle, (), hle, List.take_of_length_le ?_⟩
    rw [CACHE_READ_CHUNK] at hchunk ⊢
    omega
  · obtain ⟨-, hrange⟩ := (mem_grid_iff hpos haligned).1 ht
    constructor
    · intro h
      obtain ⟨c, hc, rfl⟩ := List.mem_map.1 h
      exact List.mem_map_of_mem (List.mem_of_mem_filter hc)
    · intro h
      obtain ⟨c, hc, rfl⟩ := List.mem_map.1 h
      exact List.mem_map_of_mem (List.mem_filter.2 ⟨hc, decide_eq_true hrange⟩)

theorem timesBetween_grid {first step : ℤ} (h : 0 < step) (n : ℕ) :
    timesBetween first (first + (n - 1) * step) step = grid first step n := by
  rw [timesBetween, add_sub_cancel_left, Int.mul_ediv_cancel _ h.ne']
  congr 1
  omega

/-- The end of a chunk. -/
theorem chunkEnd_eq {cursor step : ℤ} (h : 0 < step) (n : ℕ) :
    min (cursor + (n - 1) * step) (cursor + (CACHE_READ_CHUNK - 1) * step) =
      cursor + ((min n 10000 : ℕ) - 1) * step := by
  rw [min_add_add_left, ← min_mul_of_nonneg _ _ h.le, CACHE_READ_CHUNK]
  congr 2
  omega

/-- The chunks count every time of the range. -/
theorem cachedAndMissing_eq (hstore : Gridded request.timeframe store.rows) {cursor : ℤ} {n : ℕ}
    (hcursor : 1 ≤ cursor) (haligned : request.timeframe.intervalMs ∣ cursor)
    (hend : request.endTime = cursor + (n - 1) * request.timeframe.intervalMs)
    (cached missing : ℕ) : cachedAndMissing store request cursor cached missing =
      .ok (cached + ((grid cursor request.timeframe.intervalMs n).filter
          (· ∈ store.rows.map (·.openTime))).length,
        missing + ((grid cursor request.timeframe.intervalMs n).filter
          (· ∉ store.rows.map (·.openTime))).length) := by
  have hpos := request.timeframe.intervalMs_pos
  induction n using Nat.strongRecOn generalizing cursor cached missing with
  | _ n ih =>
    unfold cachedAndMissing
    rcases Nat.eq_zero_or_pos n with rfl | hn
    · rw [if_neg (by push_cast at hend; linarith)]
      rfl
    have hle : cursor ≤ request.endTime := by
      have : 0 ≤ ((n : ℤ) - 1) * request.timeframe.intervalMs := mul_nonneg (by omega) hpos.le
      omega
    rw [if_pos hle]
    dsimp only
    rw [hend, chunkEnd_eq hpos, timesBetween_grid hpos]
    -- The loop reads the times in chunks of at most ten thousand: `m` now, the rest later.
    obtain ⟨m, hm⟩ : ∃ m, m = min n 10000 := ⟨_, rfl⟩
    rw [← hm]
    obtain ⟨rest, rfl⟩ : ∃ rest, n = m + rest := Nat.exists_eq_add_of_le (by omega)
    obtain ⟨rows, hrows, hmem⟩ := @mem_getReplayCandles store request hstore cursor m hcursor
      haligned (by omega) (by rw [CACHE_READ_CHUNK]; omega)
    have hnext : cursor + ((m : ℤ) - 1) * request.timeframe.intervalMs +
        request.timeframe.intervalMs = cursor + m * request.timeframe.intervalMs := by ring
    have hmove : 0 ≤ (m : ℤ) * request.timeframe.intervalMs := by positivity
    rw [hrows, hnext]
    simp only [bind, Except.bind]
    rw [ih rest (by omega) (by omega) (haligned.add (dvd_mul_left _ _))
      (by rw [hend]; push_cast; ring), grid_add]
    have hcached : (grid cursor request.timeframe.intervalMs m).filter
        (· ∈ rows.map (·.openTime)) = (grid cursor request.timeframe.intervalMs m).filter
          (· ∈ store.rows.map (·.openTime)) :=
      List.filter_congr fun t ht => decide_eq_decide.2 (hmem t ht)
    have hmissing : (grid cursor request.timeframe.intervalMs m).filter
        (· ∉ rows.map (·.openTime)) = (grid cursor request.timeframe.intervalMs m).filter
          (· ∉ store.rows.map (·.openTime)) :=
      List.filter_congr fun t ht => decide_eq_decide.2 (not_congr (hmem t ht))
    rw [hcached, hmissing, List.filter_append, List.filter_append, List.length_append,
      List.length_append, add_assoc, add_assoc]

/-- A request is aligned with closed candles. -/
structure SyncRequest.Aligned (request : SyncRequest) : Prop where
  pos : 1 ≤ request.startTime
  start : request.timeframe.intervalMs ∣ request.startTime
  finish : request.timeframe.intervalMs ∣ request.endTime
  le : request.startTime ≤ request.endTime
  closed : request.endTime ≤ request.lastClosedOpenTime
  expected : request.expectedCandles =
    (request.endTime - request.startTime) / request.timeframe.intervalMs + 1

/-- The times at which the candles of a request open. -/
def SyncRequest.expectedTimes (request : SyncRequest) : List ℤ :=
  timesBetween request.startTime request.endTime request.timeframe.intervalMs

theorem syncRequest_aligned {repr : PyValue → String} {payload : PyDict} {now : ℤ}
    (h : syncRequest repr payload now = .ok request) : request.Aligned := by
  simp only [syncRequest, bind_eq_ok, pure_eq_ok, mapError_eq_ok] at h
  obtain ⟨symbol, -, tf, -, requestedStart, -, requestedEnd, -, ⟨startTime, endTime⟩, hrange,
    force, -, rfl⟩ := h
  obtain ⟨hle, hdvd⟩ := normalizeSyncRequest_eq_ok hrange
  simp only [normalizeSyncRequest, bind_eq_ok, pure_eq_ok, require_eq_ok] at hrange
  obtain ⟨-, hmin, -, -, -, -, -, -, -, -, heq⟩ := hrange
  obtain ⟨rfl, rfl⟩ := Prod.mk.inj heq
  have hpos := tf.intervalMs_pos
  have hnot_before : requestedStart + tf.intervalMs - 1 <
      ((requestedStart + tf.intervalMs - 1) / tf.intervalMs + 1) * tf.intervalMs :=
    Int.lt_ediv_add_one_mul_self _ hpos
  exact ⟨by linarith, dvd_mul_left _ _, (Int.dvd_iff_dvd_of_dvd_sub hdvd).2 (dvd_mul_left _ _), hle,
    min_le_right _ _, rfl⟩

/-- A range is complete if every time of it is stored. -/
theorem cachedRangeStatus_eq (hstore : Gridded request.timeframe store.rows)
    (h : request.Aligned) : ∃ status, cachedRangeStatus store request = .ok status ∧
      (status.complete ↔ request.expectedTimes ⊆ store.rows.map (·.openTime)) := by
  have hpos := request.timeframe.intervalMs_pos
  obtain ⟨m, hm⟩ : request.timeframe.intervalMs ∣ request.endTime - request.startTime :=
    dvd_sub h.finish h.start
  have hm0 : 0 ≤ m := nonneg_of_mul_nonneg_right (hm ▸ sub_nonneg.2 h.le) hpos
  obtain ⟨m, rfl⟩ := Int.eq_ofNat_of_zero_le hm0
  have hend : request.endTime =
      request.startTime + ((m + 1 : ℕ) - 1 : ℤ) * request.timeframe.intervalMs := by
    push_cast
    linarith
  have htimes : request.expectedTimes =
      grid request.startTime request.timeframe.intervalMs (m + 1) := by
    rw [SyncRequest.expectedTimes, hend, timesBetween_grid hpos]
  have hexpected : request.expectedCandles = (m + 1 : ℕ) := by
    rw [h.expected, hm, Int.mul_ediv_cancel_left _ hpos.ne']
    push_cast
    rfl
  rw [cachedRangeStatus, cachedAndMissing_eq hstore h.pos h.start hend 0 0, htimes]
  refine ⟨_, rfl, ?_⟩
  -- Complete means that no time of the grid is missing in the store.
  simp only [Nat.zero_add, decide_eq_true_eq, List.length_eq_zero_iff, List.filter_eq_nil_iff,
    not_not]
  constructor
  · exact fun hcomplete t ht => hcomplete.1 t ht
  · intro hall
    refine ⟨fun t ht => hall ht, ?_⟩
    rw [List.filter_eq_self.2 fun t ht => decide_eq_true (hall ht), length_grid, hexpected]

/-- What a run stores is collected, too. -/
theorem Collected.run {c : Collector} {transport : Transport}
    (h : Collected request.timeframe store) :
    Collected request.timeframe ((c.runPages transport request persist).runOn store).2 :=
  .sync h rfl

end

/-- Collecting a range hands on every candle of the exchange once, from the newest page on. It fails
    only if the pages that it may fetch cannot have the candles that are expected, after the newest
    ones. The range is complete if each of its candles is stored. -/
theorem collection_complete {repr : PyValue → String} {payload : PyDict} {now : ℤ}
    {request : SyncRequest} (h : syncRequest repr payload now = .ok request) (c : Collector)
    {x : Exchange request.timeframe} {transport : Transport}
    (hx : x.Answers request.symbol transport) {store : CandleTable}
    (hstore : Collected request.timeframe store) :
    (∃ outcome pages, (c.runPages transport request recordPage).runOn [] = (outcome, pages) ∧
      HandsOn ((x.available request.startTime request.endTime).map (·.candle))
        (c.pageLimit * c.maxPages) outcome pages ∧
      (request.expectedCandles ≤ (c.pageLimit * c.maxPages : ℕ) →
        ∃ stats, outcome = .ok stats)) ∧
    ∃ status, cachedRangeStatus ((c.runPages transport request persist).runOn store).2 request =
        .ok status ∧
      (status.complete ↔ request.expectedTimes ⊆
        ((c.runPages transport request persist).runOn store).2.rows.map (·.openTime)) := by
  have haligned := syncRequest_aligned h
  refine ⟨?_, cachedRangeStatus_eq hstore.run.gridded haligned⟩
  obtain ⟨outcome, pages, hrun, hhands, hroom⟩ := runPages_record hx haligned.closed
  refine ⟨outcome, pages, hrun, hhands, fun hle => ?_⟩
  rcases outcome with e | stats
  · have hlt := hroom e rfl
    rw [haligned.expected] at hle
    push_cast at hle
    omega
  · exact ⟨stats, rfl⟩

/-! ## A sample -/

/-- A row of the exchange. -/
def sampleRow (openTime : String) : Json :=
  .arr [.str openTime, .str "100", .str "101.5", .str "99", .str "100.5", .str "12", .str "1206"]

/-- The candle of a row. -/
def sampleCandle (openTime : ℤ) : Candle where
  openTime := openTime
  openPrice := 100
  highPrice := 203 / 2
  lowPrice := 99
  closePrice := 201 / 2
  volume := 12
  turnover := some 1206
  source := "bybit_main_public_kline"

/-- A row that is read as its candle. -/
theorem sampleRow_valid {text : String} {openTime : ℤ}
    (htime : (rawOpenTime (sampleRow text)).toOption.any (· = openTime))
    (hcandle : (rawCandle openTime (sampleRow text)).toOption.any (· = sampleCandle openTime)) :
    rawOpenTime (sampleRow text) = .ok openTime ∧
      rawCandle openTime (sampleRow text) = .ok (sampleCandle openTime) := by
  obtain ⟨_, htime, heq⟩ := any_toOption.1 htime
  obtain ⟨_, hcandle, heq'⟩ := any_toOption.1 hcandle
  rw [decide_eq_true_eq] at heq heq'
  exact ⟨heq ▸ htime, heq' ▸ hcandle⟩

/-- A candle of the exchange. -/
def sampleKline (text : String) (openTime : ℤ)
    (htime : (rawOpenTime (sampleRow text)).toOption.any (· = openTime))
    (hcandle : (rawCandle openTime (sampleRow text)).toOption.any (· = sampleCandle openTime))
    (haligned : Timeframe.m5.intervalMs ∣ openTime) : Kline .m5 where
  raw := sampleRow text
  candle := sampleCandle openTime
  time := (sampleRow_valid htime hcandle).1
  valid := (sampleRow_valid htime hcandle).2
  aligned := haligned

/-- An exchange that has two candles. -/
def sampleExchange : Exchange .m5 where
  klines := [
    sampleKline "1714550700000" 1714550700000 (by decide +kernel) (by decide +kernel) (by decide),
    sampleKline "1714550400000" 1714550400000 (by decide +kernel) (by decide +kernel) (by decide)]
  descending := by
    rw [List.pairwise_pair]
    decide

/-- The answers of the exchange. -/
def sampleTransport : Transport := fun _ params => .ok (.obj [("retCode", .num 0),
  ("retMsg", .str "OK"), ("result", .obj [("list", .arr
    (((sampleExchange.available params.start params.finish).take params.limit).map (·.raw)))])])

/-- A request of the two candles. -/
def sampleSync : PyDict := [("symbol", .str "btcusdt"), ("timeframe", .str "5"),
  ("startTime", .int 1714550400000), ("endTime", .int 1714550700000)]

/-- The request, aligned. -/
def sampleSyncRequest : SyncRequest where
  symbol := "BTCUSDT"
  timeframe := .m5
  startTime := 1714550400000
  endTime := 1714550700000
  lastClosedOpenTime := 1714551300000
  expectedCandles := 2
  force := false

theorem collection_complete_sample : ∃ stats pages,
    ((Collector.ofLimits 1 2).runPages sampleTransport sampleSyncRequest recordPage).runOn [] =
      (.ok stats, pages) ∧
    newestFirst pages = [sampleCandle 1714550700000, sampleCandle 1714550400000] := by
  have h : syncRequest (fun _ => "") sampleSync 1714551600000 = .ok sampleSyncRequest := by
    have hsome : (syncRequest (fun _ => "") sampleSync 1714551600000).toOption =
        some sampleSyncRequest := by decide +kernel
    rcases hrequest : syncRequest (fun _ => "") sampleSync 1714551600000 with e | request
    · rw [hrequest] at hsome
      cases hsome
    · rw [hrequest] at hsome
      rw [Option.some.inj hsome]
  have hanswers : sampleExchange.Answers sampleSyncRequest.symbol sampleTransport :=
    fun _ _ _ _ => ⟨_, rfl, rfl⟩
  obtain ⟨⟨outcome, pages, hrun, hhands, hok⟩, -⟩ :=
    collection_complete h (Collector.ofLimits 1 2) hanswers .empty
  obtain ⟨stats, rfl⟩ := hok (by decide)
  exact ⟨stats, pages, hrun, hhands.all stats rfl⟩

end IntradayBot.Replay
