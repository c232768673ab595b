import Mathlib.Order.OrderDual
import IntradayBot.Data.Pages
import IntradayBot.Data.PyValue
import IntradayBot.Data.SortBy
import IntradayBot.Replay.Storage

/-!
# The journal of a replay

The journal of a session lists its events page by page, from the first one or from the last one on
(`journal`). A page is read with one row more than its limit, which tells whether there is a next
one; the cursor of this one is the sequence number of the last entry.
-/

namespace IntradayBot.Replay.Journal

open PyText

/-- The exceptions of the journal. -/
inductive JournalError
  /-- `ReplayAnalyticsValidationError` -/
  | validation (message : String)
  /-- `OverflowError`, of an infinite number that is made an integer. -/
  | overflow
  deriving DecidableEq, Repr

/-! ## Queries -/

variable (repr : PyValue → String)

/-- `value in (None, "")` -/
def isMissing : PyValue → Bool
  | .none => true
  | .str s => s = ""
  | _ => false

/-- `int(value)`, where the exceptions but for `OverflowError` are turned into the message. -/
def integer (value : PyValue) (message : String) : Except JournalError ℤ :=
  match value with
  | .float (.inf _) => .error .overflow
  | value => match PyValue.int? repr value with
    | .ok n => .ok n
    | .error _ => .error (.validation message)

/-- `_bounded_integer(value, field, default=, minimum=, maximum=)` -/
def boundedInteger (value : PyValue) (field : String) (default minimum maximum : ℤ) :
    Except JournalError ℤ := do
  let result ← integer repr (if isMissing value then .int default else value)
    s!"{field} must be an integer."
  require (minimum ≤ result ∧ result ≤ maximum)
    (.validation s!"{field} must be between {minimum} and {maximum}.")
  return result

/-- `_optional_sequence(value)` -/
def optionalSequence (value : PyValue) : Except JournalError (Option ℤ) :=
  if isMissing value then return none
  else do
    let result ← integer repr value "cursorSequence must be an integer."
    require (0 ≤ result) (.validation "cursorSequence cannot be negative.")
    return some result

/-- `text.strip().lower()` -/
def folded (text : String) : String := String.ofList ((stripChars text.toList).map Char.toLower)

/-- `_boolean(value, default=)` -/
def boolean (value : PyValue) (default : Bool) : Except JournalError Bool :=
  match value with
  | .none => return default
  | .bool b => return b
  | value =>
    let normalized := folded (PyValue.text repr value)
    if normalized ∈ ["1", "true", "yes", "on"] then return true
    else if normalized ∈ ["0", "false", "no", "off", ""] then return false
    else .error (.validation "Boolean analytics option is invalid.")

/-- `direction` -/
inductive Direction
  | asc
  | desc
  deriving DecidableEq

/-- `_direction(value)` -/
def direction (value : PyValue) : Except JournalError Direction :=
  let result := folded (PyValue.textOr repr value "desc")
  if result = "asc" then return .asc
  else if result = "desc" then return .desc
  else .error (.validation "direction must be asc or desc.")

/-- A character of `_EVENT_TYPE_PATTERN`. -/
def isEventTypeChar (c : Char) : Bool :=
  (97 ≤ c.toNat ∧ c.toNat ≤ 122) ∨ c.isDigit ∨ c ∈ ['_', '.', '-']

/-- `_event_type(value)` -/
def eventType (value : PyValue) : Except JournalError (Option String) :=
  if value matches .none then return none
  else if strip (PyValue.text repr value) = "" then return none
  else do
    let result := folded (PyValue.text repr value)
    require (result.toList.all isEventTypeChar ∧ 2 ≤ result.length ∧ result.length ≤ 80)
      (.validation "eventType is invalid.")
    return some result

/-- `_JOURNAL_CATEGORIES` -/
def JOURNAL_CATEGORIES : List String :=
  ["all", "session", "step", "candle", "strategy", "risk", "execution", "trade", "pnl"]

/-- `_category(value)` -/
def category (value : PyValue) : Except JournalError {c : String // c ∈ JOURNAL_CATEGORIES} :=
  let result := folded (PyValue.textOr repr value "all")
  if h : result ∈ JOURNAL_CATEGORIES then return ⟨result, h⟩
  else .error (.validation ("category must be one of: " ++
    "all, session, step, candle, strategy, risk, execution, trade, pnl."))

/-- `_TRADE_STATUSES`, with what the trades of a session can be. -/
def tradeStatuses : List (String × Option TradeStatus) :=
  [("OPEN", some .opened), ("CLOSED", some .closed), ("CANCELLED", none)]

/-- `_trade_status(value)`: the trades that are wanted. -/
def tradeStatus (value : PyValue) : Except JournalError (Option (Option TradeStatus)) :=
  if value matches .none then return none
  else if strip (PyValue.text repr value) = "" then return none
  else
    let result := String.ofList ((stripChars (PyValue.text repr value).toList).map Char.toUpper)
    match tradeStatuses.find? (·.1 = result) with
    | some (_, status) => return some status
    | none => .error (.validation "tradeStatus must be OPEN, CLOSED, or CANCELLED.")

/-- `DEFAULT_JOURNAL_LIMIT` -/
def DEFAULT_JOURNAL_LIMIT : ℤ := 50

/-- `MAX_JOURNAL_LIMIT` -/
def MAX_JOURNAL_LIMIT : ℤ := 200

/-- `DEFAULT_TRADE_LIMIT` -/
def DEFAULT_TRADE_LIMIT : ℤ := 50

/-- `MAX_TRADE_LIMIT` -/
def MAX_TRADE_LIMIT : ℤ := 200

/-- `normalize_journal_query(query)` -/
structure Options where
  limit : ℤ
  direction : Direction
  cursorSequence : Option ℤ
  eventType : Option String
  category : {c : String // c ∈ JOURNAL_CATEGORIES}
  includePayload : Bool
  includeTrades : Bool
  tradeStatus : Option (Option TradeStatus)
  tradeLimit : ℤ

/-- `normalize_journal_query(query)` -/
def normalizeJournalQuery (data : PyDict) : Except JournalError Options := do
  return {
    limit := ← boundedInteger repr (data.get "limit") "limit" DEFAULT_JOURNAL_LIMIT
      1 MAX_JOURNAL_LIMIT
    direction := ← direction repr (data.get "direction")
    cursorSequence := ← optionalSequence repr (data.get "cursorSequence")
    eventType := ← eventType repr (data.get "eventType")
    category := ← category repr (data.get "category")
    includePayload := ← boolean repr (data.get "includePayload") true
    includeTrades := ← boolean repr (data.get "includeTrades") true
    tradeStatus := ← tradeStatus repr (data.get "tradeStatus")
    tradeLimit := ← boundedInteger repr (data.get "tradeLimit") "tradeLimit" DEFAULT_TRADE_LIMIT
      1 MAX_TRADE_LIMIT }

/-! ## The journal -/

/-- A row of `replay_events`. -/
structure EventRow where
  sequenceNo : ℤ
  eventType : String
  candleOpenTime : Option ℤ
  payload : Json
  createdAt : ℤ

/-- The events of a session, whose sequence numbers are unique, and start with zero. -/
structure EventTable where
  rows : List EventRow
  distinct : (rows.map (·.sequenceNo)).Nodup
  nonneg : ∀ row ∈ rows, 0 ≤ row.sequenceNo

/-- `sequence_no>%s`, or `sequence_no<%s` -/
def Direction.Beyond (cursor sequenceNo : ℤ) : Direction → Prop
  | .asc => cursor < sequenceNo
  | .desc => sequenceNo < cursor

instance (d : Direction) (cursor sequenceNo : ℤ) : Decidable (d.Beyond cursor sequenceNo) :=
  match d with
  | .asc => inferInstanceAs (Decidable (cursor < sequenceNo))
  | .desc => inferInstanceAs (Decidable (sequenceNo < cursor))

/-- `ORDER BY sequence_no` -/
def Direction.order (rows : List EventRow) : Direction → List EventRow
  | .asc => sortBy (·.sequenceNo) rows
  | .desc => sortBy (fun row => OrderDual.toDual row.sequenceNo) rows

/-- `event_type=%s`, or `event_type LIKE %s`: no category has a character that stands for others. -/
def Options.Matches (options : Options) (row : EventRow) : Prop :=
  match options.eventType with
  | some eventType => row.eventType = eventType
  | none => options.category.1 = "all" ∨
    (options.category.1 ++ ".").toList.isPrefixOf row.eventType.toList

instance (options : Options) (row : EventRow) : Decidable (options.Matches row) := by
  unfold Options.Matches
  split <;> infer_instance

/-- An entry of the journal. -/
structure Entry where
  sequenceNo : ℤ
  eventType : String
  candleOpenTime : Option ℤ
  createdAt : ℤ
  payload : Option Json

/-- The entry of a row. -/
def entryOf (includePayload : Bool) (row : EventRow) : Entry where
  sequenceNo := row.sequenceNo
  eventType := row.eventType
  candleOpenTime := row.candleOpenTime
  createdAt := row.createdAt
  payload :=
    if includePayload then some (match row.payload with
      | .obj fields => .obj fields
      | _ => .obj [])
    else none

/-- The rows that are fetched for a page. -/
def fetched (options : Options) (table : EventTable) : List EventRow :=
  (options.direction.order (table.rows.filter fun row =>
    (∀ c ∈ options.cursorSequence, options.direction.Beyond c row.sequenceNo) ∧
      options.Matches row)).take (options.limit + 1).toNat

/-- `journalSummary` -/
structure JournalSummary where
  totalEvents : ℕ
  firstSequence : Option ℤ
  lastSequence : Option ℤ
  totalTrades : ℕ
  openTrades : ℕ
  closedTrades : ℕ

/-- The key of `ORDER BY entry_time DESC,trade_id DESC`, where a session has one trade for each
    entry time. -/
def tradeOrder (trade : Trade) : ℤᵒᵈ := OrderDual.toDual trade.entryTime

/-- `journal(session_id, query)`, but for what it copies from the session and from the query. -/
structure JournalResponse where
  entries : List Entry
  trades : List Trade
  nextCursorSequence : Option ℤ
  hasMore : Bool
  journalSummary : JournalSummary

/-- `journal(session_id, query)`, of a session that there is. -/
def journal (query : PyDict) (table : EventTable) (trades : List Trade) :
    Except JournalError JournalResponse := do
  let options ← normalizeJournalQuery repr query
  let rows := fetched options table
  let hasMore := options.limit.toNat < rows.length
  let entries := (rows.take options.limit.toNat).map (entryOf options.includePayload)
  return {
    entries := entries
    trades := if options.includeTrades then
        (sortBy tradeOrder (trades.filter fun t =>
          ∀ status ∈ options.tradeStatus, some t.status = status)).take options.tradeLimit.toNat
      else []
    nextCursorSequence := if hasMore then entries.getLast?.map (·.sequenceNo) else none
    hasMore := hasMore
    journalSummary := {
      totalEvents := table.rows.length
      firstSequence := (table.rows.map (·.sequenceNo)).min?
      lastSequence := (table.rows.map (·.sequenceNo)).max?
      totalTrades := trades.length
      openTrades := trades.countP fun t => t.status = .opened
      closedTrades := trades.countP fun t => t.status = .closed } }

/-! ## From page to page -/

/-- The page of a request, with the cursor that the one before it has returned. -/
def journalPage (query : PyDict) (tables : ℕ → EventTable) (trades : ℕ → List Trade) (i : ℕ)
    (cursor : Option ℤ) : Except JournalError (Page Entry ℤ) := do
  let response ← journal repr (query.set "cursorSequence" (cursor.elim .none .int)) (tables i)
    (trades i)
  return ⟨response.entries, if response.hasMore then response.nextCursorSequence else none⟩

variable {repr} {query : PyDict} {options : Options} {tables : ℕ → EventTable}
  {trades : ℕ → List Trade} {κ : Type} [LinearOrder κ] {key : EventRow → κ} {encode : κ → ℤ}

/-- The cursor does not change what the other options are. -/
theorem normalizeJournalQuery_cursor
    (h : normalizeJournalQuery repr (query.set "cursorSequence" .none) = .ok options) {n : ℤ}
    (hn : 0 ≤ n) : normalizeJournalQuery repr (query.set "cursorSequence" (.int n)) =
      .ok { options with cursorSequence := some n } := by
  simp only [normalizeJournalQuery, PyDict.get_set, String.reduceEq, reduceIte, bind_eq_ok,
    pure_eq_ok] at h
  obtain ⟨limit, hlimit, direction, hdirection, _, -, eventType, heventType, category, hcategory,
    payload, hpayload, includeTrades, htrades, status, hstatus, tradeLimit, htradeLimit, rfl⟩ := h
  have hcursor : optionalSequence repr (.int n) = .ok (some n) := by
    have hmissing : isMissing (.int n) = false := rfl
    rw [optionalSequence, hmissing, if_neg Bool.false_ne_true]
    simp only [bind_eq_ok, require_eq_ok, pure_eq_ok]
    exact ⟨n, rfl, (), hn, rfl⟩
  simp only [normalizeJournalQuery, PyDict.get_set, String.reduceEq, reduceIte, bind_eq_ok,
    pure_eq_ok]
  exact ⟨limit, hlimit, direction, hdirection, _, hcursor, eventType, heventType, category, hcategory,
    payload, hpayload, includeTrades, htrades, status, hstatus, tradeLimit, htradeLimit, rfl⟩

theorem normalizeJournalQuery_eq_ok
    (h : normalizeJournalQuery repr (query.set "cursorSequence" .none) = .ok options) :
    1 ≤ options.limit ∧ options.cursorSequence = none := by
  simp only [normalizeJournalQuery, PyDict.get_set, String.reduceEq, reduceIte, bind_eq_ok,
    pure_eq_ok] at h
  obtain ⟨limit, hlimit, _, -, cursor, hcursor, _, -, _, -, _, -, _, -, _, -, _, -, rfl⟩ := h
  simp only [boundedInteger, bind_eq_ok, require_eq_ok, pure_eq_ok] at hlimit
  obtain ⟨_, -, _, ⟨hle, -⟩, rfl⟩ := hlimit
  exact ⟨hle, (pure_eq_ok.1 hcursor).symm⟩

/-- The rows are listed by a key, from which the sequence number can be read. -/
structure Keyed (d : Direction) (key : EventRow → κ) (encode : κ → ℤ) : Prop where
  sequenceNo : ∀ row, encode (key row) = row.sequenceNo
  order : ∀ rows, d.order rows = sortBy key rows
  beyond : ∀ c row, d.Beyond (encode c) row.sequenceNo ↔ c < key row

theorem keyed_asc : Keyed .asc (·.sequenceNo) id := ⟨fun _ => rfl, fun _ => rfl, fun _ _ => .rfl⟩

theorem keyed_desc : Keyed .desc (fun row => OrderDual.toDual row.sequenceNo) OrderDual.ofDual :=
  ⟨fun _ => rfl, fun _ => rfl, fun _ _ => .rfl⟩

/-- The rows that match, in the order of the journal. -/
def Options.listed (options : Options) (key : EventRow → κ) (table : EventTable) : List EventRow :=
  sortBy key (table.rows.filter fun row => options.Matches row)

theorem fetched_eq (hkey : Keyed options.direction key encode) {cursor : Option κ}
    (hcursor : options.cursorSequence = cursor.map encode) (table : EventTable) :
    fetched options table =
      (after key cursor (options.listed key table)).take (options.limit + 1).toNat := by
  rw [fetched, hkey.order, Options.listed, after, filter_sortBy, List.filter_filter]
  congr 2
  refine List.filter_congr fun row _ => ?_
  rw [hcursor]
  rcases cursor with _ | c
  · simp
  · simp [hkey.beyond]

theorem Options.listed_ordered (hkey : Keyed options.direction key encode) (table : EventTable) :
    Ordered key (options.listed key table) := by
  refine pairwise_lt_sortBy ?_
  have hdistinct : (table.rows.map key).Nodup := by
    refine .of_map encode ?_
    rw [List.map_map, show encode ∘ key = (·.sequenceNo) from funext hkey.sequenceNo]
    exact table.distinct
  exact hdistinct.sublist (List.filter_sublist.map key)

theorem Options.mem_listed {table : EventTable} {row : EventRow} :
    row ∈ options.listed key table ↔ row ∈ table.rows ∧ options.Matches row := by
  simp [Options.listed]

/-- The page of a request is one of the rows that match. -/
theorem journalPage_eq (hkey : Keyed options.direction key encode)
    (h : normalizeJournalQuery repr (query.set "cursorSequence" .none) = .ok options) {i : ℕ}
    {cursor : Option κ} (hcursor : ∀ c ∈ cursor, 0 ≤ encode c) :
    journalPage repr query tables trades i (cursor.map encode) =
      let p := page key options.limit.toNat cursor (options.listed key (tables i))
      .ok ⟨p.rows.map (entryOf options.includePayload), p.next.map encode⟩ := by
  obtain ⟨hlimit, hnone⟩ := normalizeJournalQuery_eq_ok h
  have hoptions : normalizeJournalQuery repr
      (query.set "cursorSequence" ((cursor.map encode).elim .none .int)) =
        .ok { options with cursorSequence := cursor.map encode } := by
    rcases cursor with _ | c
    · rw [Option.map_none, Option.elim_none, h, ← hnone]
    · exact normalizeJournalQuery_cursor h (hcursor c rfl)
  -- One row more than the page is fetched, to see whether there is a next one.
  have hsucc : (options.limit + 1).toNat = options.limit.toNat + 1 := by omega
  have hfetched : fetched { options with cursorSequence := cursor.map encode } (tables i) =
      (after key cursor (options.listed key (tables i))).take (options.limit.toNat + 1) := by
    rw [← hsucc]
    exact @fetched_eq { options with cursorSequence := cursor.map encode } _ _ _ _ hkey cursor rfl _
  rw [page_eq_lookAhead, journalPage, journal, hoptions]
  refine congrArg Except.ok (congrArg₂ Page.mk ?_ ?_)
  · change List.map _ (List.take _ (fetched _ _)) = _
    rw [hfetched]
  · have hseq : (fun row => (entryOf options.includePayload row).sequenceNo) = encode ∘ key :=
      funext fun row => (hkey.sequenceNo row).symm
    simp only [hfetched, decide_eq_true_eq]
    split
    · rw [List.getLast?_map, Option.map_map, Option.map_map, ← hseq]
      rfl
    · rfl

/-- Between requests, events may be recorded, but only finitely many. -/
structure Records (tables : ℕ → EventTable) : Prop where
  subset : ∀ i, (tables i).rows ⊆ (tables (i + 1)).rows
  finite : ∃ all : List EventRow, ∀ i, (tables i).rows ⊆ all

theorem Records.grows (h : Records tables) (hkey : Keyed options.direction key encode) :
    Grows key fun i => options.listed key (tables i) where
  ordered i := options.listed_ordered hkey (tables i)
  subset i row hrow := by
    obtain ⟨hrow, hmatches⟩ := Options.mem_listed.1 hrow
    exact Options.mem_listed.2 ⟨h.subset i hrow, hmatches⟩
  finite := by
    obtain ⟨all, hall⟩ := h.finite
    exact ⟨all, fun i row hrow => hall i (Options.mem_listed.1 hrow).1⟩

/-- What a walk through the journal returns: the rows that match, in the declared order, with
    all of those of the beginning. -/
structure Returns (options : Options) (tables : ℕ → EventTable) (rows : List EventRow) :
    Prop where
  ordered : rows.Pairwise fun a b => options.direction.Beyond a.sequenceNo b.sequenceNo
  all : ∀ row ∈ (tables 0).rows, options.Matches row → row ∈ rows
  only : ∀ row ∈ rows, options.Matches row ∧ ∃ i, row ∈ (tables i).rows

theorem journal_walk_of_keyed (hkey : Keyed options.direction key encode)
    (h : normalizeJournalQuery repr (query.set "cursorSequence" .none) = .ok options)
    (hrecords : Records tables) (trades : ℕ → List Trade) : ∃ rows : List EventRow,
      Walk (journalPage repr query tables trades) 0 none
        (rows.map (entryOf options.includePayload)) ∧ Returns options tables rows := by
  have hlimit : 0 < options.limit.toNat := by
    have := (normalizeJournalQuery_eq_ok h).1
    omega
  obtain ⟨rows, hwalk, hordered, hall, honly⟩ :=
    exists_walk (ε := JournalError) (hrecords.grows hkey) hlimit
  refine ⟨rows, ?_, hordered.imp fun {a b} hlt => ?_, fun row hrow hmatches => ?_,
    fun row hrow => ?_⟩
  · -- the cursors that the journal returns are the numbers of its rows
    refine hwalk.map _ encode (fun cursor => ∀ c ∈ cursor, 0 ≤ encode c)
      (fun i cursor p hcursor hp => ⟨?_, ?_⟩) (by simp)
    · obtain rfl := Except.ok.inj hp
      exact journalPage_eq hkey h hcursor
    · obtain rfl := Except.ok.inj hp
      intro c hc
      rcases @page_next _ _ _ key (options.listed key (tables i)) cursor _ hlimit with
        ⟨hnext, -⟩ | ⟨last, hnext, hlast, -⟩
      · exact absurd (hnext.symm.trans hc) (Option.some_ne_none c).symm
      · obtain rfl := Option.some.inj (hnext.symm.trans hc)
        have hmem := (mem_after.1 (List.mem_of_mem_take (List.mem_of_getLast? hlast))).1
        rw [hkey.sequenceNo]
        exact (tables i).nonneg _ (Options.mem_listed.1 hmem).1
  · have := (hkey.beyond (key a) b).2 hlt
    rwa [hkey.sequenceNo] at this
  · exact hall (Options.mem_listed.2 ⟨hrow, hmatches⟩)
  · obtain ⟨i, hi⟩ := honly row hrow
    obtain ⟨hi, hmatches⟩ := Options.mem_listed.1 hi
    exact ⟨hmatches, i, hi⟩

/-- A walk through the journal ends, and returns every row that matched when it began. -/
theorem journal_walk
    (h : normalizeJournalQuery repr (query.set "cursorSequence" .none) = .ok options)
    (hrecords : Records tables) (trades : ℕ → List Trade) : ∃ rows : List EventRow,
      Walk (journalPage repr query tables trades) 0 none
        (rows.map (entryOf options.includePayload)) ∧ Returns options tables rows := by
  rcases hd : options.direction with _ | _
  · exact journal_walk_of_keyed (hd ▸ keyed_asc) h hrecords trades
  · exact journal_walk_of_keyed (hd ▸ keyed_desc) h hrecords trades

end IntradayBot.Replay.Journal
