import Mathlib
import IntradayBot.Data.NumberText
import IntradayBot.Data.PyJson
import IntradayBot.Setup.Confirmation

/-!
# The stages together

The worker runs the three stages one after the other (`Scan.play`), each of them for the latest
closed candle of its interval. A stage reads what the stage before it has published, and a
classification first brings the watchlist up to date. Processes end, and the stages start again
from what the store has.

What is queued in any run was confirmed by a closed 5M candle, for a setup that was classified
before, of a row that a scan of the hourly candles selected (`confirmedEntry_provenance`).
-/

namespace IntradayBot.Setup

open Accuracy
open IntradayBot.Runtime (integer)

/-! ## Runs -/

/-- The three stages. -/
structure Scan where
  hourly : Stage Watchlist
  fifteen : Stage Classification
  five : Stage Entries

/-- The stages before anything was saved. -/
def Scan.initial : Scan where
  hourly := { Body.initial ⟨[], []⟩ with persisted := false, stored := none }
  fifteen := { Body.initial ⟨[], []⟩ with persisted := false, stored := none }
  five := { Body.initial ⟨none, [], []⟩ with persisted := false, stored := none }

/-- The calls of the stages, with what they meet, and a restart of the process. -/
inductive Event
  | watch (timestamp : ℤ) (force : Bool) (b : WatchBuild)
  /-- The watchlist is asked for at a time of its own. -/
  | classify (timestamp : ℤ) (force : Bool) (b : SetupBuild) (hourTimestamp : ℤ) (hour : WatchBuild)
  | confirm (timestamp : ℤ) (force : Bool) (b : EntryBuild)
  | restart (hourly fifteen five : Loading) (watchlistSize : Option ℤ)

/-- One call: `build` if it is forced, and else `ensure_current`. -/
def Scan.play (log1p : ℚ → ℚ) (w : Scan) : Event → Scan
  | .watch timestamp force b =>
    { w with
      hourly :=
        if force then buildWatchlist log1p b timestamp w.hourly
        else ensureWatchlist log1p b timestamp w.hourly }
  | .classify timestamp force b hourTimestamp hour =>
    if force ∨ w.fifteen.due .fifteen timestamp then
      let hourly := ensureWatchlist log1p hour hourTimestamp w.hourly
      { w with
        hourly := hourly
        fifteen := buildClassification b timestamp hourly w.fifteen }
    else w
  | .confirm timestamp force b =>
    { w with
      five :=
        if force then buildEntries b timestamp w.fifteen w.five
        else ensureEntries b timestamp w.fifteen w.five }
  | .restart hourly fifteen five watchlistSize =>
    { hourly := w.hourly.restart (Watchlist.accept (integer watchlistSize 50 1 100)) ⟨[], []⟩ hourly
      fifteen := w.fifteen.restart Classification.accept ⟨[], []⟩ fifteen
      five := w.five.restart some ⟨none, [], []⟩ five }

/-- The stages after a run. -/
def run (log1p : ℚ → ℚ) (es : List Event) : Scan := es.foldl (Scan.play log1p) .initial

theorem run_concat (log1p : ℚ → ℚ) (es : List Event) (e : Event) :
    run log1p (es ++ [e]) = (run log1p es).play log1p e := by
  rw [run, List.foldl_concat, run]

/-! ## Provenance -/

/-- The scan of the hourly candles that an event makes, if the watchlist is due. -/
def Event.hourlyScan : Event → Option (ℤ × WatchBuild)
  | .watch timestamp _ b => some (timestamp, b)
  | .classify _ _ _ hourTimestamp hour => some (hourTimestamp, hour)
  | .confirm .. | .restart .. => none

/-- A row qualified for the watchlist at an event. -/
def Watched (es : List Event) (row : WatchRow) : Prop :=
  ∃ e ∈ es, ∃ timestamp b, e.hourlyScan = some (timestamp, b) ∧
    Qualifies b.env.settings b.answers timestamp row.toQualified

/-- A row was classified at an event, of a row that had qualified for the watchlist by then. -/
def ClassifiedIn (es : List Event) (row : SetupRow) (setup : ClassifiedSetup) : Prop :=
  ∃ before timestamp force b hourTimestamp hour after,
    es = before ++ .classify timestamp force b hourTimestamp hour :: after ∧
    ∃ watch, Watched (before ++ [.classify timestamp force b hourTimestamp hour]) watch ∧
      ClassifiedBy b.settings b.answers timestamp watch row setup

/-- A candidate was confirmed at an event, for a setup that was classified before: with the setup
    candle that was the latest closed one, by one of the two 5M candles that opened after it
    closed. -/
def ConfirmedIn (es : List Event) (c : Candidate) : Prop :=
  ∃ before timestamp force b after, es = before ++ .confirm timestamp force b :: after ∧
    c.createdAt = timestamp ∧
    c.setupFifteenMinuteCandleTime = targetOpenMs .fifteen timestamp ∧
    (c.entryFiveMinuteCandleTime = c.setupFifteenMinuteCandleTime + 900000 ∨
      c.entryFiveMinuteCandleTime = c.setupFifteenMinuteCandleTime + 1200000) ∧
    ∃ row setup bar, ClassifiedIn before row setup ∧
      row.fifteenMinuteCandleTime = c.setupFifteenMinuteCandleTime ∧
      ConfirmedBy b.candles timestamp c.entryFiveMinuteCandleTime c.setupFifteenMinuteCandleTime row
        setup bar c

section

variable {log1p : ℚ → ℚ} {es : List Event} {e : Event} {w : Scan}

theorem Watched.append {row : WatchRow} (h : Watched es row) (es' : List Event) :
    Watched (es ++ es') row := by
  obtain ⟨e, he, hrow⟩ := h
  exact ⟨e, List.mem_append_left _ he, hrow⟩

theorem ClassifiedIn.append {row : SetupRow} {setup : ClassifiedSetup} (h : ClassifiedIn es row setup)
    (es' : List Event) : ClassifiedIn (es ++ es') row setup := by
  obtain ⟨before, timestamp, force, b, hourTimestamp, hour, after, rfl, hrow⟩ := h
  exact ⟨before, timestamp, force, b, hourTimestamp, hour, after ++ es', by simp, hrow⟩

theorem ConfirmedIn.append {c : Candidate} (h : ConfirmedIn es c) (es' : List Event) :
    ConfirmedIn (es ++ es') c := by
  obtain ⟨before, timestamp, force, b, after, rfl, hc⟩ := h
  exact ⟨before, timestamp, force, b, after ++ es', by simp, hc⟩

/-- The strategies see the side of a row of the watchlist on the candles that it is from. -/
theorem Qualifies.trendDirection {cfg : WatchSettings} {answers : WatchAnswers} {timestamp : ℤ}
    {row : Qualified} (h : Qualifies cfg answers timestamp row) :
    ∃ candles, answers.candles row.symbol = .ok candles ∧
      trendDirection (filterClosedCandles candles .sixty (timestamp * 1000)) =
        row.trend.expectedSide := by
  obtain ⟨candles, score, hcandles, hclassify, -⟩ := h.classified
  exact ⟨candles, hcandles, trendDirection_of_classifyTrend hclassify⟩

/-! ## What the stages have -/

/-- The symbol is in upper case, of letters and digits. -/
def PlainSymbol (symbol : String) : Prop :=
  Json.upperCase symbol = symbol ∧ ∀ c ∈ symbol.toList, c.isAlphanum

theorem upperCase_upperCase (s : String) : Json.upperCase (Json.upperCase s) = Json.upperCase s := by
  simp [Json.upperCase, Function.comp_def]

theorem plainSymbol_of_eligible {cfg : WatchSettings} {item : Ticker} {row : MarketRow}
    (h : eligible cfg item = some row) : PlainSymbol row.symbol := by
  rw [eligible] at h
  split at h
  · cases h
  rename_i hvalid
  obtain ⟨last, -, h⟩ := Option.bind_eq_some_iff.1 h
  obtain ⟨turnover, -, h⟩ := Option.bind_eq_some_iff.1 h
  obtain ⟨change, -, h⟩ := Option.bind_eq_some_iff.1 h
  split at h
  · cases h
  obtain ⟨spread, -, h⟩ := Option.bind_eq_some_iff.1 h
  split at h
  · cases h
  obtain rfl := Option.some.inj h
  simp only [validSymbol, not_not, decide_eq_true_eq, Bool.decide_and, Bool.and_eq_true,
    List.all_eq_true] at hvalid
  exact ⟨upperCase_upperCase _, hvalid.2⟩

theorem Qualifies.plainSymbol {cfg : WatchSettings} {answers : WatchAnswers} {timestamp : ℤ}
    {row : Qualified} (h : Qualifies cfg answers timestamp row) : PlainSymbol row.symbol := by
  obtain ⟨tickers, -, before, item, after, -, hitem, -⟩ := h.eligible
  exact plainSymbol_of_eligible hitem

/-- What the watchlist has after a run. -/
structure WatchKept (es : List Event) (_ : Option ℤ) (content : Watchlist) : Prop where
  watched : ∀ row ∈ content.rows, Watched es row
  nodup : (content.rows.map (·.symbol)).Nodup

/-- What the classification has after a run. -/
structure SetupsKept (es : List Event) (time : Option ℤ) (content : Classification) : Prop where
  classified : ∀ row ∈ content.rows, ∀ setup, row.setup = some setup →
    ClassifiedIn es row setup ∧ time = some row.fifteenMinuteCandleTime
  plain : ∀ row ∈ content.rows, PlainSymbol row.symbol
  nodup : (content.rows.map (·.symbol)).Nodup

/-- What the confirmation has after a run. -/
structure EntriesKept (es : List Event) (_ : Option ℤ) (content : Entries) : Prop where
  confirmed : ∀ c ∈ content.confirmedEntryQueue, ConfirmedIn es c
  nodup : (content.confirmedEntryQueue.map (·.candidateKey)).Nodup
  length : content.confirmedEntryQueue.length ≤ 1000

/-- What the stages have after a run. -/
structure Kept (es : List Event) (w : Scan) : Prop where
  hourly : w.hourly.All (WatchKept es)
  fifteen : w.fifteen.All (SetupsKept es)
  five : w.five.All (EntriesKept es)

theorem Kept.append (h : Kept es w) (es' : List Event) : Kept (es ++ es') w where
  hourly := h.hourly.mono fun _ _ hrows =>
    ⟨fun row hrow => (hrows.watched row hrow).append es', hrows.nodup⟩
  fifteen := h.fifteen.mono fun _ _ hrows =>
    ⟨fun row hrow setup hsetup =>
      ⟨(hrows.classified row hrow setup hsetup).1.append es',
        (hrows.classified row hrow setup hsetup).2⟩, hrows.plain, hrows.nodup⟩
  five := h.five.mono fun _ _ hrows =>
    ⟨fun c hc => (hrows.confirmed c hc).append es', hrows.nodup, hrows.length⟩

/-! ## One call -/

theorem watchKept_build {s : Stage Watchlist} {b : WatchBuild} {timestamp : ℤ}
    (he : e ∈ es) (hscan : e.hourlyScan = some (timestamp, b)) (h : s.All (WatchKept es)) :
    (buildWatchlist log1p b timestamp s).All (WatchKept es) := by
  refine h.build fun body hbody => ?_
  obtain ⟨all, -, -, hrows, hnodup⟩ := scan_rows hbody
  exact ⟨fun row hrow => ⟨e, he, timestamp, b, hscan, (hrows row hrow).1⟩, hnodup⟩

theorem watchKept_ensure {s : Stage Watchlist} {b : WatchBuild} {timestamp : ℤ}
    (he : e ∈ es) (hscan : e.hourlyScan = some (timestamp, b)) (h : s.All (WatchKept es)) :
    (ensureWatchlist log1p b timestamp s).All (WatchKept es) := by
  rw [ensureWatchlist]
  split
  · exact watchKept_build he hscan h
  · exact h

/-- What is kept of a watchlist is the start of its rows. -/
theorem Watchlist.rows_accept {size : ℤ} {saved kept : Watchlist}
    (h : Watchlist.accept size saved = some kept) : kept.rows = saved.rows.take size.toNat := by
  rw [Watchlist.accept] at h
  split at h
  · exact Option.some.inj h ▸ rfl
  · cases h

theorem Classification.rows_accept {saved kept : Classification}
    (h : Classification.accept saved = some kept) :
    kept.rows = saved.rows.take MAX_WATCHLIST_ROWS := by
  rw [Classification.accept] at h
  split at h
  · exact Option.some.inj h ▸ rfl
  · cases h

/-- The rows of the watchlist that are classified are some of its rows, in order. -/
theorem currentHourlyRows_sublist (upstream : Stage Watchlist) :
    (currentHourlyRows upstream).Sublist upstream.content.rows :=
  (List.take_sublist _ _).trans List.filter_sublist

theorem symbol_classifyVotes {cfg : GradeSettings} {base : SetupRow} {side : Signal}
    {answer : Except String Evaluation} :
    (classifyVotes cfg base side answer).1.symbol = base.symbol := by
  unfold classifyVotes
  split
  · rfl
  split
  · rfl
  dsimp only
  split
  · rfl
  · split <;> rfl

/-- A row has the symbol of the row of the watchlist. -/
theorem symbol_classifySymbol {cfg : SetupSettings} {answers : SetupAnswers} {timestamp : ℤ}
    {watch : WatchRow} {row : SetupRow} {rejection : Option Rejection}
    (h : classifySymbol cfg answers timestamp watch = .ok (row, rejection)) :
    row.symbol = Json.upperCase watch.symbol := by
  rw [classifySymbol] at h
  split at h
  · exact (Prod.mk.inj (pure_eq_ok.1 h)).1 ▸ rfl
  obtain ⟨candles, -, h⟩ := bind_eq_ok.1 h
  dsimp only at h
  split at h
  · exact (Prod.mk.inj (pure_eq_ok.1 h)).1 ▸ rfl
  split at h
  · exact (Prod.mk.inj (pure_eq_ok.1 h)).1 ▸ rfl
  have hsymbol := congrArg (·.1.symbol) (pure_eq_ok.1 h)
  exact (hsymbol.symm.trans symbol_classifyVotes).trans rfl

/-- The rows of a classification have the symbols of the rows of the watchlist. -/
theorem symbols_classified {cfg : SetupSettings} {answers : SetupAnswers} {timestamp : ℤ}
    {watches : List WatchRow} {classified : List (SetupRow × Option Rejection)}
    (h : watches.mapM (classifySymbol cfg answers timestamp) = .ok classified)
    (hplain : ∀ watch ∈ watches, PlainSymbol watch.symbol) :
    (classified.map Prod.fst).map (·.symbol) = watches.map (·.symbol) := by
  have hall := mapM_eq_ok.1 h
  clear h
  induction hall with
  | nil => rfl
  | @cons watch answer watches answers hrow _ ih =>
    have hsymbol := symbol_classifySymbol hrow
    rw [(hplain watch List.mem_cons_self).1] at hsymbol
    simp only [List.map_cons, hsymbol,
      ih fun watch hwatch => hplain watch (List.mem_cons_of_mem _ hwatch)]

/-- What a classification has, of a watchlist. -/
theorem setupsKept_classify {before : List Event} {timestamp hourTimestamp : ℤ} {force : Bool}
    {b : SetupBuild} {hour : WatchBuild} {upstream : Stage Watchlist} {body : Body Classification}
    (hbody : classify b.settings b.answers timestamp upstream = .ok body)
    (hup : upstream.All
      (WatchKept (before ++ [.classify timestamp force b hourTimestamp hour]))) :
    SetupsKept (before ++ [.classify timestamp force b hourTimestamp hour]) body.candleTime
      body.content := by
  rw [classify] at hbody
  dsimp only at hbody
  split at hbody
  · cases hbody
  obtain ⟨classified, hclassified, hbody⟩ := bind_eq_ok.1 hbody
  obtain rfl := pure_eq_ok.1 hbody
  have hsub := currentHourlyRows_sublist upstream
  have hplain : ∀ watch ∈ currentHourlyRows upstream, PlainSymbol watch.symbol := by
    intro watch hwatch
    obtain ⟨e, -, timestamp, b, -, hqualifies⟩ := hup.content.watched watch (hsub.subset hwatch)
    exact hqualifies.plainSymbol
  have hfrom : ∀ row ∈ classified.map Prod.fst, ∃ watch ∈ currentHourlyRows upstream, ∃ rejection,
      classifySymbol b.settings b.answers timestamp watch = .ok (row, rejection) := by
    intro row hrow
    obtain ⟨⟨row, rejection⟩, hmem, rfl⟩ := List.mem_map.1 hrow
    obtain ⟨watch, hwatch, heq⟩ := exists_of_mem_mapM hclassified hmem
    exact ⟨watch, hwatch, rejection, heq⟩
  refine ⟨fun row hrow setup hsetup => ?_, fun row hrow => ?_, ?_⟩
  · obtain ⟨watch, hwatch, rejection, heq⟩ := hfrom row hrow
    have hby := classifySymbol_setup heq hsetup
    refine ⟨⟨before, timestamp, force, b, hourTimestamp, hour, [], rfl, watch,
      hup.content.watched watch (hsub.subset hwatch), hby⟩, ?_⟩
    rw [hby.current]
  · obtain ⟨watch, hwatch, rejection, heq⟩ := hfrom row hrow
    rw [symbol_classifySymbol heq, (hplain watch hwatch).1]
    exact hplain watch hwatch
  · change ((classified.map Prod.fst).map (·.symbol)).Nodup
    rw [symbols_classified hclassified hplain]
    exact (hsub.map _).nodup hup.content.nodup

/-- The latest closed 5M candle opens at one of four times after the latest closed 15M candle
    does. -/
theorem targetOpenMs_five (timestamp : ℤ) :
    ∃ k : ℤ, 2 ≤ k ∧ k ≤ 4 ∧
      targetOpenMs .five timestamp = targetOpenMs .fifteen timestamp + k * 300000 := by
  refine ⟨timestamp / 300 - 3 * (timestamp / 900) + 2, ?_, ?_, ?_⟩
  · omega
  · omega
  · simp only [targetOpenMs, seconds]
    ring

/-- What a confirmation has, of a classification. -/
theorem entriesKept_confirm {before : List Event} {timestamp : ℤ} {force : Bool} {b : EntryBuild}
    {classification : Stage Classification} {queue : List Candidate} {body : Body Entries}
    (hbody : confirm (queueLimit b.limit) b.candles timestamp classification queue = .ok body)
    (hsetups : classification.All (SetupsKept before))
    (hqueue : EntriesKept (before ++ [.confirm timestamp force b]) none ⟨none, [], queue⟩) :
    EntriesKept (before ++ [.confirm timestamp force b]) body.candleTime body.content := by
  rw [confirm] at hbody
  dsimp only at hbody
  split at hbody
  · cases hbody
  split at hbody
  · cases hbody
  rename_i hstale
  split at hbody
  · obtain rfl := pure_eq_ok.1 hbody
    exact ⟨hqueue.confirmed, hqueue.nodup, hqueue.length⟩
  rename_i hlater
  obtain ⟨⟨rows, queue'⟩, hall, hbody⟩ := bind_eq_ok.1 hbody
  obtain rfl := pure_eq_ok.1 hbody
  have hlimit : queueLimit b.limit ≤ 1000 := by
    have : integer b.limit 100 10 1000 ≤ 1000 := integer_le b.limit 100 (by norm_num)
    rw [queueLimit]
    omega
  refine confirmAll_keeps (I := fun queue =>
    EntriesKept (before ++ [.confirm timestamp force b]) none ⟨none, [], queue⟩) ?_ hall hqueue |> fun
      hkept => ⟨hkept.confirmed, hkept.nodup, hkept.length⟩
  intro queue hkept row hrow entry c rejection hconfirm
  refine ⟨fun c' hc' => ?_, nodup_queueCandidate hkept.nodup,
    length_queueCandidate.trans (max_le hkept.length hlimit)⟩
  rcases mem_queueCandidate hc' with hc' | rfl
  · exact hkept.confirmed c' hc'
  obtain ⟨-, setup, bar, hby⟩ := confirmSymbol_eq_some hconfirm
  have hmem : row ∈ classification.content.rows := List.mem_of_mem_filter hrow
  obtain ⟨hin, htime⟩ := hsetups.content.classified row hmem setup hby.classified
  have hsetup : c'.setupFifteenMinuteCandleTime = targetOpenMs .fifteen timestamp := by
    rw [hby.built]
    rfl
  have hentry : c'.entryFiveMinuteCandleTime = targetOpenMs .five timestamp := by
    rw [hby.built]
    rfl
  have hcreated : c'.createdAt = timestamp := by
    rw [hby.built]
    rfl
  refine ⟨before, timestamp, force, b, [], rfl, hcreated, hsetup, ?_, row, setup, bar, hin, ?_, ?_⟩
  · obtain ⟨k, hk2, hk4, hk⟩ := targetOpenMs_five timestamp
    omega
  · rw [not_not, htime] at hstale
    rw [hsetup, ← hstale]
    rfl
  · rw [hsetup, hentry]
    exact hby

theorem kept_play (h : Kept es w) (e : Event) : Kept (es ++ [e]) (w.play log1p e) := by
  have hkept := h.append [e]
  have hmem : e ∈ es ++ [e] := by simp
  cases e with
  | watch timestamp force b =>
    refine ⟨?_, hkept.fifteen, hkept.five⟩
    rw [Scan.play]
    dsimp only
    split
    · exact watchKept_build hmem rfl hkept.hourly
    · exact watchKept_ensure hmem rfl hkept.hourly
  | classify timestamp force b hourTimestamp hour =>
    rw [Scan.play]
    split
    · have hhourly : (ensureWatchlist log1p hour hourTimestamp w.hourly).All
          (WatchKept (es ++ [.classify timestamp force b hourTimestamp hour])) :=
        watchKept_ensure hmem rfl hkept.hourly
      exact ⟨hhourly, hkept.fifteen.build fun body hbody => setupsKept_classify hbody hhourly,
        hkept.five⟩
    · exact hkept
  | confirm timestamp force b =>
    have hbuild : (buildEntries b timestamp w.fifteen w.five).All
        (EntriesKept (es ++ [.confirm timestamp force b])) := by
      refine hkept.five.build fun body hbody => entriesKept_confirm hbody h.fifteen ?_
      exact ⟨hkept.five.content.confirmed, hkept.five.content.nodup, hkept.five.content.length⟩
    refine ⟨hkept.hourly, hkept.fifteen, ?_⟩
    rw [Scan.play]
    dsimp only
    split
    · exact hbuild
    · rw [ensureEntries]
      split
      · exact hbuild
      · exact hkept.five
  | restart hourly fifteen five watchlistSize =>
    refine ⟨hkept.hourly.restart ⟨by simp, by simp⟩ ?_,
      hkept.fifteen.restart ⟨by simp, by simp, by simp⟩ ?_,
      hkept.five.restart ⟨by simp, by simp, by simp⟩ ?_⟩
    · intro time saved kept hsaved haccept
      have hrows := Watchlist.rows_accept haccept
      have hsub : kept.rows.Sublist saved.rows := hrows ▸ List.take_sublist _ _
      exact ⟨fun row hrow => hsaved.watched row (hsub.subset hrow), (hsub.map _).nodup hsaved.nodup⟩
    · intro time saved kept hsaved haccept
      have hrows := Classification.rows_accept haccept
      have hsub : kept.rows.Sublist saved.rows := hrows ▸ List.take_sublist _ _
      exact ⟨fun row hrow => hsaved.classified row (hsub.subset hrow),
        fun row hrow => hsaved.plain row (hsub.subset hrow), (hsub.map _).nodup hsaved.nodup⟩
    · intro time saved kept hsaved haccept
      obtain rfl := Option.some.inj haccept
      exact hsaved

theorem kept_initial : Kept [] Scan.initial where
  hourly := ⟨⟨by simp [Scan.initial, Body.initial], by simp [Scan.initial, Body.initial]⟩,
    by simp [Scan.initial]⟩
  fifteen := ⟨⟨by simp [Scan.initial, Body.initial], by simp [Scan.initial, Body.initial],
    by simp [Scan.initial, Body.initial]⟩, by simp [Scan.initial]⟩
  five := ⟨⟨by simp [Scan.initial, Body.initial], by simp [Scan.initial, Body.initial],
    by simp [Scan.initial, Body.initial]⟩, by simp [Scan.initial]⟩

theorem kept_run (log1p : ℚ → ℚ) (es : List Event) : Kept es (run log1p es) := by
  induction es using List.reverseRecOn with
  | nil => exact kept_initial
  | append_singleton es e ih =>
    rw [run_concat]
    exact kept_play ih e

/-- The strategies vote for a long position. -/
def exampleSetup : SetupBuild where
  grades := ⟨none, none, none⟩
  minimumClosedCandles := some 30
  answers := {
    candles := fun _ => .ok (exampleBars 333000 900 30)
    evaluate := fun _ => .ok {
      signal := .buy
      reason := "ORB"
      votes := [⟨"ORB", .buy, "Opening range broken", 5⟩, ⟨"VWAP", .wait, "No bounce", 0⟩]
      router := ⟨.buy, 90, 1, "aggressive", "ORB"⟩
      entryInterval := "5"
      signalCandleTime := some 359700000 } }
  saving := ⟨true, true, true⟩

/-- The 5M candle after the setup rises. -/
def exampleEntry : EntryBuild where
  limit := none
  candles := fun _ => .ok (exampleBars 360000 300 1)
  saving := ⟨true, true, true⟩

/-- The three stages are run once, and the process restarts. -/
def exampleEvents : List Event :=
  [.watch 360300 false exampleWatch, .classify 360300 false exampleSetup 360300 exampleWatch,
    .confirm 360300 false exampleEntry,
    .restart ⟨true, true⟩ ⟨true, true⟩ ⟨true, true⟩ none]

theorem exampleEvents_queue :
    (run id exampleEvents).five.content.confirmedEntryQueue.map (·.candidateKey) =
      ["BTCUSDT:359100000:360000000:Buy:ORB"] := by decide +kernel

/-- The queue has each key once, and never more than the greatest limit. -/
theorem confirmedEntry_distinct (log1p : ℚ → ℚ) (es : List Event) :
    ((run log1p es).five.content.confirmedEntryQueue.map (·.candidateKey)).Nodup ∧
      (run log1p es).five.content.confirmedEntryQueue.length ≤ 1000 :=
  ⟨(kept_run log1p es).five.content.nodup, (kept_run log1p es).five.content.length⟩

end

end IntradayBot.Setup
