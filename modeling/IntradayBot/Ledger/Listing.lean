import Mathlib.Order.OrderDual
import IntradayBot.Data.Base64
import IntradayBot.Data.Except
import IntradayBot.Data.Pages
import IntradayBot.Data.PyJson
import IntradayBot.Ledger.Executions

/-!
# The ledger, page by page

The rows of the ledger are listed for a date, and perhaps for a symbol, from the last one on
(`listExecutions`). A page is read with one row more than its limit, which tells whether there is a
next one. The cursor of this one is a text, in base64, of the time and the identifier of the last
row; it is read back as it was written (`decodeCursor_encodeCursor`).
-/

namespace IntradayBot.Ledger

open PyText

/-- The exceptions of the listing. -/
inductive ListingError
  /-- `LiveExecutionValidationError` -/
  | validation (message : String)
  /-- `OverflowError`, of an infinite limit. -/
  | overflow
  deriving DecidableEq, Repr

/-! ## Cursors -/

/-- `_encode_cursor(exec_time, exec_id)` -/
def encodeCursor (execTime : ℤ) (execId : String) : String :=
  let raw := (String.ofList (PyJson.dumpsPair execTime execId)).toByteArray
  String.ofList (Base64.unpadded (Base64.encode raw.data.toList))

variable (repr : PyValue → String)

/-- `json.loads(base64.urlsafe_b64decode(text + "=" * (-len(text) % 4)).decode("utf-8"))`, of a text
    in its characters; `none` where it raises. -/
def decoded (text : List Char) : Option PyValue := do
  let bytes ← Base64.decode (Base64.padded text)
  let raw ← String.fromUTF8? ⟨bytes.toArray⟩
  PyJson.loads raw.toList

/-- `_decode_cursor(value)` -/
def decodeCursor (value : PyValue) : Except ListingError (Option (ℤ × String)) :=
  let text := stripChars (PyValue.textOrEmpty repr value).toList
  if text = [] then return none
  else match decoded text with
    | some (.list [execTime, execId]) => match PyValue.int? repr execTime with
      | .ok execTime => return some (execTime, PyValue.text repr execId)
      | .error _ => .error (.validation "cursor is invalid.")
    | _ => .error (.validation "cursor is invalid.")

/-! ## Queries -/

/-- The number of days of a month. -/
def daysInMonth (year month : ℕ) : ℕ :=
  if month = 2 then if year % 4 = 0 ∧ (year % 100 ≠ 0 ∨ year % 400 = 0) then 29 else 28
  else if month ∈ [4, 6, 9, 11] then 30
  else 31

/-- A digit of any script. -/
def isDecimal (c : Char) : Bool := (asciiDigit c).isDigit

/-- The number that digits of any script write. -/
def decimalNumber (digits : List Char) : ℕ := Nat.ofDigitChars 10 (digits.map asciiDigit) 0

/-- `datetime.strptime(text, "%Y-%m-%d")` is a date: the first digit of the month and of the day,
    and the last one of the month, are of ASCII. -/
def isCalendarDate : List Char → Bool
  | [y₁, y₂, y₃, y₄, '-', m₁, m₂, '-', d₁, d₂] =>
    let year := decimalNumber [y₁, y₂, y₃, y₄]
    let month := decimalNumber [m₁, m₂]
    let day := decimalNumber [d₁, d₂]
    [m₁, m₂, d₁].all Char.isDigit && (d₁ ∈ ['1', '2'] || d₂.isDigit) && 0 < year &&
      (1 ≤ month && month ≤ 12) && (1 ≤ day && day ≤ daysInMonth year month)
  | _ => false

/-- `_DATE_PATTERN.fullmatch(text)` -/
def isDateText : List Char → Bool
  | [y₁, y₂, y₃, y₄, '-', m₁, m₂, '-', d₁, d₂] => [y₁, y₂, y₃, y₄, m₁, m₂, d₁, d₂].all isDecimal
  | _ => false

/-- `normalize_date(value, default=)` -/
def normalizeDate (value : PyValue) (default : String) : Except ListingError String := do
  let text := strip (PyValue.textOr repr value default)
  require (isDateText text.toList) (.validation "date must use YYYY-MM-DD.")
  require (isCalendarDate text.toList) (.validation "date is not a valid calendar date.")
  return text

/-- `bounded_limit` -/
def boundedLimit (limit : PyValue) : Except ListingError ℤ :=
  let value := if PyValue.truthy limit then limit else .int 100
  match value with
  | .float (.inf _) => .error .overflow
  | value => match PyValue.int? repr value with
    | .ok n => .ok (max 1 (min 500 n))
    | .error _ => .error (.validation "limit must be an integer.")

/-- `normalized_symbol` -/
def normalizedSymbol (symbol : PyValue) : Except ListingError (Option String) := do
  let text := String.ofList
    ((stripChars (PyValue.textOrEmpty repr symbol).toList).map Char.toUpper)
  if text = "" then return none
  else
    require (isUsdtPerpetual text) (.validation "symbol must be a USDT perpetual contract.")
    return some text

/-! ## The listing -/

/-- A row of `live_execution_ledger`, with the date it is stored under. -/
structure StoredRow extends LedgerRow where
  tradingDate : String
  deriving DecidableEq

/-- `live_execution_ledger`, whose primary key is the identifier. -/
structure LedgerTable where
  rows : List StoredRow
  distinct : (rows.map (·.execId)).Nodup

variable (collation : Collation)

/-- `(exec_time,exec_id)` -/
abbrev RowKey := ℤ ×ₗ collation.Text

/-- `(exec_time,exec_id)` -/
def rowKey (execTime : ℤ) (execId : String) : RowKey collation :=
  toLex (execTime, collation.text execId)

/-- `(exec_time,exec_id)` -/
def StoredRow.key (row : StoredRow) : RowKey collation := rowKey collation row.execTime row.execId

/-- What is asked for: `date_value`, `limit`, `cursor`, and `symbol`. -/
structure ListQuery where
  dateValue : PyValue
  limit : PyValue
  cursor : PyValue
  symbol : PyValue

/-- What a query selects. -/
structure Selection where
  tradingDate : String
  symbol : Option String

/-- `trading_date=%s`, and `symbol=%s` -/
def Selection.Matches (s : Selection) (row : StoredRow) : Prop :=
  row.tradingDate = s.tradingDate ∧ ∀ symbol ∈ s.symbol, row.symbol = symbol

instance (s : Selection) (row : StoredRow) : Decidable (s.Matches row) :=
  inferInstanceAs (Decidable (_ ∧ _))

/-- `list(date_value=, limit=, cursor=, symbol=)` -/
structure Listing where
  selection : Selection
  entries : List StoredRow
  limit : ℤ
  hasMore : Bool
  nextCursor : Option String

/-- The rows that are fetched for a page. -/
def Selection.fetched (s : Selection) (cursor : Option (ℤ × String)) (limit : ℤ)
    (table : LedgerTable) : List StoredRow :=
  (sortBy (fun row => OrderDual.toDual (row.key collation)) (table.rows.filter fun row =>
    s.Matches row ∧ ∀ c ∈ cursor, row.key collation < rowKey collation c.1 c.2)).take (limit + 1).toNat

/-- `list(date_value=, limit=, cursor=, symbol=)`, on a trading date. -/
def listExecutions (query : ListQuery) (currentDate : String) (table : LedgerTable) :
    Except ListingError Listing := do
  let tradingDate ← normalizeDate repr query.dateValue currentDate
  let limit ← boundedLimit repr query.limit
  let cursor ← decodeCursor repr query.cursor
  let symbol ← normalizedSymbol repr query.symbol
  let rows := Selection.fetched collation ⟨tradingDate, symbol⟩ cursor limit table
  let hasMore := limit.toNat < rows.length
  let page := rows.take limit.toNat
  return {
    selection := ⟨tradingDate, symbol⟩
    entries := page
    limit := limit
    hasMore := hasMore
    nextCursor :=
      if hasMore then page.getLast?.map fun row => encodeCursor row.execTime row.execId else none }

/-! ## The cursor is read back -/

variable {repr collation}

theorem stripChars_of_plain {l : List Char} (h : ∀ c ∈ l, isSpace c = false) : stripChars l = l := by
  have hdrop : ∀ l : List Char, (∀ c ∈ l, isSpace c = false) → l.dropWhile isSpace = l := by
    intro l h
    rcases l with _ | ⟨c, l⟩
    · rfl
    · exact List.dropWhile_cons_of_neg (by simp [h c])
  rw [stripChars, hdrop l h, hdrop l.reverse fun c hc => h c (List.mem_reverse.1 hc),
    List.reverse_reverse]

theorem textOrEmpty_str (s : String) : PyValue.textOrEmpty repr (.str s) = s := by
  rw [PyValue.textOrEmpty]
  split
  · rfl
  · rename_i h
    have hs : s = "" := by simpa [PyValue.truthy] using h
    exact hs.symm

theorem decoded_encodeCursor (execTime : ℤ) (execId : String) :
    decoded (encodeCursor execTime execId).toList = some (.list [.int execTime, .str execId]) := by
  set raw := String.ofList (PyJson.dumpsPair execTime execId) with hraw
  have hutf8 : String.fromUTF8? raw.toByteArray = some raw := by
    rw [String.fromUTF8?, dif_pos raw.isValidUTF8]
    rfl
  rw [decoded, encodeCursor, String.toList_ofList, Base64.padded_unpadded, Base64.decode_encode]
  simp only [Option.bind_eq_bind, Option.bind_some]
  rw [Array.toArray_toList, hutf8, Option.bind_some, hraw, String.toList_ofList,
    PyJson.loads_dumpsPair]

/-- `_decode_cursor` undoes `_encode_cursor`. -/
theorem decodeCursor_encodeCursor (execTime : ℤ) (execId : String) :
    decodeCursor repr (.str (encodeCursor execTime execId)) = .ok (some (execTime, execId)) := by
  have hplain : ∀ c ∈ (encodeCursor execTime execId).toList, isSpace c = false := by
    intro c hc
    rw [encodeCursor, String.toList_ofList] at hc
    exact (Base64.encode_plain _ c ((List.rdropWhile_prefix _ _).subset hc)).2
  have hdecoded := decoded_encodeCursor execTime execId
  have hne : (encodeCursor execTime execId).toList ≠ [] := by
    intro hnil
    rw [hnil] at hdecoded
    cases hdecoded
  rw [decodeCursor, textOrEmpty_str, stripChars_of_plain hplain, if_neg hne, hdecoded]
  rfl

/-! ## From page to page -/

variable (repr collation) in
/-- The page of a request, with the cursor that the one before it has returned. -/
def listingPage (query : ListQuery) (currentDate : ℕ → String) (tables : ℕ → LedgerTable) (i : ℕ)
    (cursor : Option String) : Except ListingError (Page StoredRow String) := do
  let listing ← listExecutions repr collation { query with cursor := cursor.elim .none .str }
    (currentDate i) (tables i)
  return ⟨listing.entries, if listing.hasMore then listing.nextCursor else none⟩

variable {query : ListQuery} {currentDate : ℕ → String} {tables : ℕ → LedgerTable}
  {s : Selection} {limit : ℤ}

variable (collation) in
/-- The order of the listing. -/
def StoredRow.order (row : StoredRow) : (RowKey collation)ᵒᵈ := OrderDual.toDual (row.key collation)

/-- What a cursor has of a key. -/
def cursorOf (key : (RowKey collation)ᵒᵈ) : ℤ × String := ofLex (OrderDual.ofDual key)

/-- The text of a key. -/
def keyText (key : (RowKey collation)ᵒᵈ) : String :=
  encodeCursor (cursorOf key).1 (cursorOf key).2

variable (collation) in
/-- The rows that match, in the order of the listing. -/
def Selection.listed (s : Selection) (table : LedgerTable) : List StoredRow :=
  sortBy (StoredRow.order collation) (table.rows.filter fun row => s.Matches row)

theorem Selection.fetched_eq (s : Selection) (cursor : Option (RowKey collation)ᵒᵈ) (limit : ℤ)
    (table : LedgerTable) :
    s.fetched collation (cursor.map cursorOf) limit table =
      (after (StoredRow.order collation) cursor (s.listed collation table)).take (limit + 1).toNat := by
  rw [Selection.fetched, Selection.listed, after, filter_sortBy, List.filter_filter]
  congr 2
  refine List.filter_congr fun row _ => ?_
  have hbeyond : (∀ c ∈ cursor.map cursorOf, row.key collation < rowKey collation c.1 c.2) ↔
      (cursor.all fun c => decide (c < row.order collation)) = true := by
    rcases cursor with _ | c
    · simp
    · simp only [Option.map_some, Option.mem_some_iff, forall_eq', Option.all_some,
        decide_eq_true_eq]
      exact Iff.rfl
  rw [Bool.eq_iff_iff, Bool.and_eq_true, decide_eq_true_iff, decide_eq_true_iff, hbeyond, and_comm]

theorem Selection.listed_ordered (s : Selection) (table : LedgerTable) :
    Ordered (StoredRow.order collation) (s.listed collation table) := by
  refine pairwise_lt_sortBy ?_
  have hdistinct : (table.rows.map (StoredRow.order collation)).Nodup := by
    refine .of_map (fun key : (RowKey collation)ᵒᵈ => (ofLex (OrderDual.ofDual key)).2) ?_
    rw [List.map_map]
    exact table.distinct
  exact hdistinct.sublist (List.filter_sublist.map _)

theorem Selection.mem_listed {table : LedgerTable} {row : StoredRow} :
    row ∈ s.listed collation table ↔ row ∈ table.rows ∧ s.Matches row := by
  simp [Selection.listed]

theorem boundedLimit_pos {value : PyValue} (h : boundedLimit repr value = .ok limit) :
    1 ≤ limit := by
  rw [boundedLimit] at h
  split at h
  · cases h
  · split at h
    · obtain rfl := Except.ok.inj h
      exact le_max_left _ _
    · cases h

/-- The page of a request is one of the rows that match. -/
theorem listingPage_eq {i : ℕ}
    (hdate : normalizeDate repr query.dateValue (currentDate i) = .ok s.tradingDate)
    (hlimit : boundedLimit repr query.limit = .ok limit)
    (hsymbol : normalizedSymbol repr query.symbol = .ok s.symbol)
    (cursor : Option (RowKey collation)ᵒᵈ) :
    listingPage repr collation query currentDate tables i (cursor.map keyText) =
      let p := page (StoredRow.order collation) limit.toNat cursor (s.listed collation (tables i))
      .ok ⟨p.rows.map id, p.next.map keyText⟩ := by
  have hcursor : decodeCursor repr ((cursor.map keyText).elim .none .str) =
      .ok (cursor.map cursorOf) := by
    rcases cursor with _ | key
    · rfl
    · exact decodeCursor_encodeCursor _ _
  -- One row more than the page is fetched, to see whether there is a next one.
  have hsucc : (limit + 1).toNat = limit.toNat + 1 := by
    have := boundedLimit_pos hlimit
    omega
  have hfetched := s.fetched_eq cursor limit (tables i)
  rw [hsucc] at hfetched
  rw [page_eq_lookAhead, listingPage, listExecutions]
  simp only [hdate, hlimit, hcursor, hsymbol]
  refine congrArg Except.ok (congrArg₂ Page.mk ?_ ?_)
  · change List.take _ (Selection.fetched _ _ _ _ _) = _
    rw [hfetched, List.map_id]
  · simp only [hfetched, decide_eq_true_eq]
    split
    · rw [Option.map_map]
      rfl
    · rfl

/-- Between requests, rows may be added, but only finitely many. -/
structure Inserts (tables : ℕ → LedgerTable) : Prop where
  subset : ∀ i, (tables i).rows ⊆ (tables (i + 1)).rows
  finite : ∃ all : List StoredRow, ∀ i, (tables i).rows ⊆ all

theorem Inserts.grows (h : Inserts tables) (s : Selection) :
    IntradayBot.Grows (StoredRow.order collation) fun i => s.listed collation (tables i) where
  ordered i := s.listed_ordered (tables i)
  subset i row hrow := by
    obtain ⟨hrow, hmatches⟩ := Selection.mem_listed.1 hrow
    exact Selection.mem_listed.2 ⟨h.subset i hrow, hmatches⟩
  finite := by
    obtain ⟨all, hall⟩ := h.finite
    exact ⟨all, fun i row hrow => hall i (Selection.mem_listed.1 hrow).1⟩

/-- What a walk through the ledger returns: the rows that match, from the last one on, with all
    of those of the beginning. -/
structure Lists (collation : Collation) (s : Selection) (tables : ℕ → LedgerTable)
    (rows : List StoredRow) : Prop where
  ordered : rows.Pairwise fun a b => b.key collation < a.key collation
  all : ∀ row ∈ (tables 0).rows, s.Matches row → row ∈ rows
  only : ∀ row ∈ rows, s.Matches row ∧ ∃ i, row ∈ (tables i).rows

/-- A walk through the ledger ends, and returns every row that matched when it began. -/
theorem listing_walk
    (hdate : ∀ i, normalizeDate repr query.dateValue (currentDate i) = .ok s.tradingDate)
    (hlimit : boundedLimit repr query.limit = .ok limit)
    (hsymbol : normalizedSymbol repr query.symbol = .ok s.symbol) (hinserts : Inserts tables) :
    ∃ rows, Walk (listingPage repr collation query currentDate tables) 0 none rows ∧
      Lists collation s tables rows := by
  have hpos : 0 < limit.toNat := by
    have := boundedLimit_pos hlimit
    omega
  obtain ⟨rows, hwalk, hordered, hall, honly⟩ :=
    exists_walk (ε := ListingError) (hinserts.grows s) hpos
  refine ⟨rows, ?_, hordered, fun row hrow hmatches => ?_, fun row hrow => ?_⟩
  · rw [← List.map_id rows]
    refine hwalk.map id keyText (fun _ => True) (fun i cursor p _ hp => ⟨?_, trivial⟩) trivial
    obtain rfl := Except.ok.inj hp
    exact listingPage_eq (hdate i) hlimit hsymbol cursor
  · exact hall (Selection.mem_listed.2 ⟨hrow, hmatches⟩)
  · obtain ⟨i, hi⟩ := honly row hrow
    obtain ⟨hi, hmatches⟩ := Selection.mem_listed.1 hi
    exact ⟨hmatches, i, hi⟩

end IntradayBot.Ledger
