import IntradayBot.Ledger.Listing
import IntradayBot.Replay.Journal

/-!
# The lists that are read page by page

Whoever reads the journal of a replay or the ledger of executions asks for one page after the
other, with the cursor that the last one has returned. Nothing is lost or repeated by this, even if
rows are added between the requests (`pagination_complete`).
-/

namespace IntradayBot

open Replay.Journal Ledger

/-- Every journal and every listing of the ledger is read from the first page to the last one. Each
    row that matched in the beginning is returned once, in the declared order, and the cursor of the
    ledger is read back as it was written. -/
theorem pagination_complete (repr : PyValue → String) (collation : Collation) :
    (∀ (query : PyDict) (options : Options) (tables : ℕ → EventTable)
        (trades : ℕ → List Replay.Trade),
      normalizeJournalQuery repr (query.set "cursorSequence" .none) = .ok options →
      Records tables → ∃ rows, Returns options tables rows ∧
        ∀ entries, Walk (journalPage repr query tables trades) 0 none entries ↔
          entries = rows.map (entryOf options.includePayload)) ∧
    (∀ (query : ListQuery) (currentDate : ℕ → String) (tables : ℕ → LedgerTable)
        (s : Selection) (limit : ℤ),
      (∀ i, normalizeDate repr query.dateValue (currentDate i) = .ok s.tradingDate) →
      boundedLimit repr query.limit = .ok limit →
      normalizedSymbol repr query.symbol = .ok s.symbol →
      Inserts tables → ∃ rows, Lists collation s tables rows ∧
        ∀ entries, Walk (listingPage repr collation query currentDate tables) 0 none entries ↔
          entries = rows) ∧
    ∀ execTime execId, decodeCursor repr (.str (encodeCursor execTime execId)) =
      .ok (some (execTime, execId)) := by
  refine ⟨fun query options tables trades h hrecords => ?_,
    fun query currentDate tables s limit hdate hlimit hsymbol hinserts => ?_,
    fun execTime execId => decodeCursor_encodeCursor execTime execId⟩
  · obtain ⟨rows, hwalk, hreturns⟩ := journal_walk h hrecords trades
    exact ⟨rows, hreturns, fun _ => hwalk.iff_eq⟩
  · obtain ⟨rows, hwalk, hlists⟩ := listing_walk hdate hlimit hsymbol hinserts
    exact ⟨rows, hlists, fun _ => hwalk.iff_eq⟩

/-! ## Two samples -/

/-- The journal of a session that has been created and started. -/
def sampleEvents : EventTable where
  rows := [⟨0, "session.created", none, .obj [], 1000⟩, ⟨1, "session.started", none, .obj [], 2000⟩]
  distinct := by decide
  nonneg := by decide

/-- A query of the events from the last one on, one by one. -/
def lastEvents : PyDict := [("limit", .int 1), ("direction", .str "desc")]

/-- An execution that opens a position. -/
def sampleExecution (execId : String) : StoredRow where
  execId := execId
  execTime := 1714550400000
  sequenceNo := none
  symbol := "BTCUSDT"
  orderId := none
  side := .buy
  execQty := 1
  execFee := 0
  feeCurrency := "USDT"
  leavesQty := 0
  apiClosedSize := none
  execQty_pos := one_pos
  positionBefore := 0
  positionAfter := 1
  closedSize := 0
  entrySize := 1
  action := .entry
  tradingDate := "2024-05-01"

/-- Two executions at the same time. -/
def sampleLedger : LedgerTable where
  rows := [sampleExecution "a", sampleExecution "b"]
  distinct := by decide

theorem pagination_complete_sample :
    (∃ options rows, Returns options (fun _ => sampleEvents) rows ∧
      ∀ entries, Walk (journalPage (fun _ => "") lastEvents (fun _ => sampleEvents) fun _ => [])
        0 none entries ↔ entries = rows.map (entryOf options.includePayload)) ∧
    ∃ rows, Lists .codePoints ⟨"2024-05-01", some "BTCUSDT"⟩ (fun _ => sampleLedger) rows ∧
      ∀ entries, Walk (listingPage (fun _ => "") .codePoints
        ⟨.str "2024-05-01", .int 1, .none, .str " btcusdt"⟩ (fun _ => "") fun _ => sampleLedger)
          0 none entries ↔ entries = rows := by
  obtain ⟨hjournal, hledger, -⟩ := pagination_complete (fun _ => "") .codePoints
  refine ⟨⟨_, hjournal lastEvents _ (fun _ => sampleEvents) (fun _ => []) rfl
    ⟨fun _ => List.Subset.refl _, sampleEvents.rows, fun _ => List.Subset.refl _⟩⟩, ?_⟩
  exact hledger ⟨.str "2024-05-01", .int 1, .none, .str " btcusdt"⟩ _ (fun _ => sampleLedger)
    ⟨"2024-05-01", some "BTCUSDT"⟩ 1 (fun _ => by decide +kernel) (by decide +kernel)
    (by decide +kernel)
    ⟨fun _ => List.Subset.refl _, sampleLedger.rows, fun _ => List.Subset.refl _⟩

end IntradayBot
