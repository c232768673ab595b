import Mathlib.Data.List.Dedup
import Mathlib.Data.List.ReduceOption
import IntradayBot.Data.SortBy
import IntradayBot.Entry.Guards

/-!
# The kill switch

The kill switch cancels the orders of each symbol that has a position, closes its positions, and
reads the positions again, a few times at most, until none is left (`executeVerifiedKillSwitch`). It
reports success if none is left and every close order was accepted.

Whether the orders were cancelled is reported, and not looked at: an order that still rests on a
symbol may open a position again after the last read. `truthful_iff` says exactly when a report of
success is true.
-/

namespace IntradayBot.KillSwitch

open PyText

/-! ## Positions -/

/-- `{"symbol": …, "side": …, "size": …}` -/
structure Summary where
  symbol : PyValue
  side : PyValue
  size : Double

/-- `size <= 0` -/
def nonpositive : Double → Bool
  | .finite q => q ≤ 0
  | .inf negative => negative
  | .nan => false

/-- The summary of a row, if it has a size. -/
def summaryOf (row : PyDict) : Except String (Option Summary) := do
  let size ← Entry.sizeOf row
  return if nonpositive size then none else some ⟨row.get "symbol", row.get "side", size⟩

/-- `_summarize_positions(rows)` -/
def summarizePositions (rows : List PyDict) : Except String (List Summary) :=
  List.reduceOption <$> rows.mapM summaryOf

/-! ## The kill switch -/

/-- An answer of `get_open_positions()`. -/
structure PositionRead where
  positions : Option (List PyDict)
  message : String

/-- An answer of `close_symbol_positions(symbol)`. -/
structure CloseResult where
  ok : Bool
  orders : List PyValue

/-- What the exchange answers: the n-th read of the positions, and the requests for a symbol. -/
structure Callbacks where
  getOpenPositions : ℕ → PositionRead
  cancelAll : String → PyValue
  closeSymbolPositions : String → CloseResult

/-- `value == 0` -/
def isZero : PyValue → Bool
  | .int n => n = 0
  | .bool b => !b
  | .float x => x = .finite 0
  | _ => false

/-- `isinstance(order, dict) and order.get("retCode") == 0` -/
def accepted : PyValue → Bool
  | .dict order => isZero (PyDict.get order "retCode")
  | _ => false

/-- `symbol_result` -/
structure SymbolResult where
  symbol : String
  cancelResult : PyValue
  closeResult : CloseResult
  orderResults : List (Bool × PyValue)

/-- The requests for a symbol. -/
def Callbacks.closeSymbol (c : Callbacks) (symbol : String) : SymbolResult :=
  let closeResult := c.closeSymbolPositions symbol
  { symbol := symbol
    cancelResult := c.cancelAll symbol
    closeResult := closeResult
    orderResults := closeResult.orders.map fun order => (accepted order, order) }

/-- The item is one of `close_failures`. -/
def SymbolResult.failed (r : SymbolResult) : Bool :=
  !r.closeResult.ok || r.orderResults.isEmpty || r.orderResults.any fun order => !order.1

/-- `remaining` and `verify_error`, and the number of the last read. -/
structure Verification where
  remaining : List Summary
  verifyError : String
  lastRead : ℕ

/-- The loop that verifies that no position is left, with this many attempts to go. -/
def Callbacks.verify (c : Callbacks) : ℕ → Verification → Except String Verification
  | 0, v => .ok v
  | attempts + 1, v =>
    let read := c.getOpenPositions (v.lastRead + 1)
    match read.positions with
    | none => c.verify attempts {
        remaining := v.remaining
        verifyError := if read.message = "" then "Position verification failed" else read.message
        lastRead := v.lastRead + 1 }
    | some rows => do
      let remaining ← summarizePositions rows
      if remaining.isEmpty then return ⟨remaining, "", v.lastRead + 1⟩
      else c.verify attempts ⟨remaining, "", v.lastRead + 1⟩

/-- What is returned, and the number of the last read of the positions, which is not. -/
structure Report where
  retCode : ℤ
  retMsg : String
  verifiedFlat : Bool
  closedSymbols : List String
  remainingPositions : List Summary
  closeAttempts : ℕ
  openPositionsBefore : ℕ
  results : List SymbolResult
  lastRead : ℕ

variable (repr : PyValue → String)

/-- `symbols` -/
def symbolsOf (positions : List Summary) : List String :=
  sortBy id ((positions.filter (·.symbol.truthy)).map fun p => p.symbol.text repr).dedup

/-- `retMsg`, after the verification. -/
def verifiedMessage (v : Verification) (success : Bool) : String :=
  if success then "Kill switch verified: all positions are flat."
  else if v.verifyError ≠ "" then "Kill switch verification failed: " ++ v.verifyError
  else if !v.remaining.isEmpty then
    let left := ", ".intercalate
      ((v.remaining.filter (·.symbol.truthy)).map fun p => p.symbol.text repr)
    "Kill switch incomplete: positions remain open (" ++
      (if left = "" then "unknown symbols" else left) ++ ")."
  else "Kill switch incomplete: one or more close orders were rejected or missing."

/-- `execute_verified_kill_switch(…)` -/
def executeVerifiedKillSwitch (c : Callbacks) (maxVerifyAttempts : ℤ) : Except String Report := do
  let read := c.getOpenPositions 0
  match read.positions with
  | none => return {
      retCode := -1
      retMsg := "Failed to fetch positions: " ++ read.message
      verifiedFlat := false
      closedSymbols := []
      remainingPositions := []
      closeAttempts := 0
      openPositionsBefore := 0
      results := []
      lastRead := 0 }
  | some positions =>
    let activePositions ← summarizePositions positions
    if activePositions.isEmpty then return {
      retCode := 0
      retMsg := "Kill switch verified: account already flat."
      verifiedFlat := true
      closedSymbols := []
      remainingPositions := []
      closeAttempts := 0
      openPositionsBefore := 0
      results := []
      lastRead := 0 }
    else
      let symbols := symbolsOf repr activePositions
      let results := symbols.map c.closeSymbol
      let v ← c.verify (max 1 maxVerifyAttempts).toNat ⟨[], "", 0⟩
      let verifiedFlat := v.verifyError = "" && v.remaining.isEmpty
      let success := verifiedFlat && (results.filter (·.failed)).isEmpty
      return {
        retCode := if success then 0 else -1
        retMsg := verifiedMessage repr v success
        verifiedFlat := verifiedFlat
        closedSymbols := if success then symbols else []
        remainingPositions := v.remaining
        closeAttempts := (results.map fun r => r.orderResults.countP (·.1)).sum
        openPositionsBefore := activePositions.length
        results := results
        lastRead := v.lastRead }

/-! ## What a read shows -/

/-- The size of a position is zero, or no number. -/
def Zero (row : PyDict) : Prop := Entry.sizeOf row = .ok (.finite 0)

instance (row : PyDict) : Decidable (Zero row) := decEq _ _

/-- A read succeeded, and shows no size but zero. -/
def PositionRead.Flat (read : PositionRead) : Prop :=
  ∃ rows, read.positions = some rows ∧ ∀ row ∈ rows, Zero row

/-- No size is an integer that is no double. -/
def PositionRead.Readable (read : PositionRead) : Prop :=
  ∀ rows ∈ read.positions, ∀ row ∈ rows, ∃ size, Entry.sizeOf row = .ok size

/-- A read succeeded, and shows a size. -/
def PositionRead.Open (read : PositionRead) : Prop :=
  ∃ rows, read.positions = some rows ∧ ∃ row ∈ rows, ¬Zero row

/-- A symbol has a position in a read. -/
def PositionRead.Has (read : PositionRead) (symbol : String) : Prop :=
  ∃ rows, read.positions = some rows ∧ ∃ row ∈ rows, ¬Zero row ∧
    (PyDict.get row "symbol").truthy ∧ (PyDict.get row "symbol").text repr = symbol

variable {repr} {row : PyDict} {rows : List PyDict} {active : List Summary}

theorem sizeOf_nonpositive {size : Double} (h : Entry.sizeOf row = .ok size) :
    nonpositive size ↔ Zero row := by
  rw [Zero, h, Except.ok.injEq]
  unfold Entry.sizeOf at h
  dsimp only at h
  split at h
  · obtain rfl := Except.ok.inj h
    simp [nonpositive]
  · obtain rfl := Except.ok.inj h
    simp [nonpositive]
  · obtain rfl := Except.ok.inj h
    simp [nonpositive]
  · cases h
  · obtain rfl := Except.ok.inj h
    simp [nonpositive]

/-- A row has a summary unless its size is zero. -/
theorem summaryOf_eq_ok {summary : Option Summary} : summaryOf row = .ok summary ↔
    ∃ size, Entry.sizeOf row = .ok size ∧
      summary = if Zero row then none else some ⟨row.get "symbol", row.get "side", size⟩ := by
  simp only [summaryOf, bind_eq_ok, pure_eq_ok]
  refine exists_congr fun size => and_congr_right fun h => ?_
  rw [eq_comm]
  simp only [sizeOf_nonpositive h]

theorem mem_summarizePositions (h : summarizePositions rows = .ok active) {summary : Summary} :
    summary ∈ active ↔ ∃ row ∈ rows, summaryOf row = .ok (some summary) := by
  obtain ⟨summaries, hmap, rfl⟩ := map_eq_ok.1 h
  rw [List.reduceOption_mem_iff]
  constructor
  · exact fun hmem => exists_of_mem_mapM hmap hmem
  · rintro ⟨row, hrow, hsummary⟩
    obtain ⟨summary', hmem, hsummary'⟩ := exists_of_mapM hmap hrow
    rwa [Except.ok.inj (hsummary'.symm.trans hsummary)] at hmem

/-- The rows can be summarized if the sizes can be read. -/
theorem summarizePositions_succeeds :
    (∃ active, summarizePositions rows = .ok active) ↔
      ∀ row ∈ rows, ∃ size, Entry.sizeOf row = .ok size := by
  constructor
  · rintro ⟨active, h⟩ row hrow
    obtain ⟨summaries, hmap, -⟩ := map_eq_ok.1 h
    obtain ⟨summary, -, hsummary⟩ := exists_of_mapM hmap hrow
    obtain ⟨size, hsize, -⟩ := summaryOf_eq_ok.1 hsummary
    exact ⟨size, hsize⟩
  · intro h
    refine Succeeds.map (Succeeds.mapM fun row hrow => ?_) _
    obtain ⟨size, hsize⟩ := h row hrow
    exact ⟨_, summaryOf_eq_ok.2 ⟨size, hsize, rfl⟩⟩

/-- No position is summarized if all sizes are zero. -/
theorem summarizePositions_isEmpty (h : summarizePositions rows = .ok active) :
    active.isEmpty ↔ ∀ row ∈ rows, Zero row := by
  rw [List.isEmpty_iff, List.eq_nil_iff_forall_not_mem]
  constructor
  · intro hnone row hrow
    by_contra hzero
    obtain ⟨size, hsize⟩ := summarizePositions_succeeds.1 ⟨_, h⟩ row hrow
    exact hnone _ ((mem_summarizePositions h).2
      ⟨row, hrow, summaryOf_eq_ok.2 ⟨size, hsize, (if_neg hzero).symm⟩⟩)
  · intro hzero summary hsummary
    obtain ⟨row, hrow, hrow'⟩ := (mem_summarizePositions h).1 hsummary
    obtain ⟨size, -, hnone⟩ := summaryOf_eq_ok.1 hrow'
    rw [if_pos (hzero row hrow)] at hnone
    cases hnone

/-- The symbols are those of the rows whose size is not zero. -/
theorem mem_symbolsOf (h : summarizePositions rows = .ok active) {symbol : String} :
    symbol ∈ symbolsOf repr active ↔ ∃ row ∈ rows, ¬Zero row ∧
      (PyDict.get row "symbol").truthy ∧ (PyDict.get row "symbol").text repr = symbol := by
  simp only [symbolsOf, (sortBy_perm _ _).mem_iff, List.mem_dedup, List.mem_map, List.mem_filter,
    mem_summarizePositions h]
  constructor
  · rintro ⟨summary, ⟨⟨row, hrow, hsummary⟩, htruthy⟩, htext⟩
    obtain ⟨size, -, heq⟩ := summaryOf_eq_ok.1 hsummary
    split at heq
    · cases heq
    · rename_i hzero
      obtain rfl := Option.some.inj heq
      exact ⟨row, hrow, hzero, htruthy, htext⟩
  · rintro ⟨row, hrow, hzero, htruthy, htext⟩
    obtain ⟨size, hsize⟩ := summarizePositions_succeeds.1 ⟨_, h⟩ row hrow
    exact ⟨_, ⟨⟨row, hrow, summaryOf_eq_ok.2 ⟨size, hsize, (if_neg hzero).symm⟩⟩, htruthy⟩, htext⟩

/-! ## The verification -/

variable {c : Callbacks} {v w : Verification}

/-- No position is left, as far as this says. -/
def Verification.flat (v : Verification) : Bool := v.verifyError = "" && v.remaining.isEmpty

variable (c v) in
/-- The reads that a verification makes, with this many attempts to go. -/
def Made (attempts n : ℕ) : Prop :=
  v.lastRead < n ∧ n ≤ v.lastRead + attempts ∧
    ∀ m, v.lastRead < m → m < n → ¬(c.getOpenPositions m).Flat

/-- A verification that returns has found no position if one of its reads shows none, and this is
    the last one. -/
structure Verified (c : Callbacks) (attempts : ℕ) (v w : Verification) : Prop where
  flat : w.flat ↔ ∃ n, v.lastRead < n ∧ n ≤ v.lastRead + attempts ∧ (c.getOpenPositions n).Flat
  last : w.flat → (c.getOpenPositions w.lastRead).Flat

section

variable {attempts n : ℕ}

/-- After a read that shows a position, or none at all, the others are made. -/
theorem made_succ (hflat : ¬(c.getOpenPositions (v.lastRead + 1)).Flat)
    (hw : w.lastRead = v.lastRead + 1) :
    Made c v (attempts + 1) n ↔ n = v.lastRead + 1 ∨ Made c w attempts n := by
  simp only [Made, hw]
  constructor
  · rintro ⟨hlt, hle, hbefore⟩
    rcases Nat.eq_or_lt_of_le (Nat.succ_le_of_lt hlt) with heq | hlt'
    · exact .inl heq.symm
    · exact .inr ⟨hlt', by omega, fun m hm => hbefore m (by omega)⟩
  · rintro (rfl | ⟨hlt, hle, hbefore⟩)
    · exact ⟨by omega, by omega, fun m hm hm' => by omega⟩
    · refine ⟨by omega, by omega, fun m hm hm' => ?_⟩
      rcases Nat.eq_or_lt_of_le (Nat.succ_le_of_lt hm) with heq | hlt'
      · exact heq ▸ hflat
      · exact hbefore m hlt' hm'

theorem Verified.succ {w' : Verification} (hflat : ¬(c.getOpenPositions (v.lastRead + 1)).Flat)
    (hw : w.lastRead = v.lastRead + 1) (h : Verified c attempts w w') :
    Verified c (attempts + 1) v w' where
  flat := by
    rw [h.flat, hw]
    constructor
    · rintro ⟨n, hlt, hle, hn⟩
      exact ⟨n, by omega, by omega, hn⟩
    · rintro ⟨n, hlt, hle, hn⟩
      refine ⟨n, ?_, by omega, hn⟩
      rcases Nat.eq_or_lt_of_le (Nat.succ_le_of_lt hlt) with rfl | hlt'
      · exact absurd hn hflat
      · exact hlt'
  last := h.last

/-- What a verification returns that has all attempts, and returns only if its reads can be
    summarized. -/
structure Verifies (c : Callbacks) (attempts : ℕ) (v : Verification) : Prop where
  returns : (∃ w, c.verify attempts v = .ok w) ↔
    ∀ n, Made c v attempts n → (c.getOpenPositions n).Readable
  verified : ∀ w, c.verify attempts v = .ok w → Verified c attempts v w

/-- The verification goes on after a read. -/
theorem Verifies.succ (hflat : ¬(c.getOpenPositions (v.lastRead + 1)).Flat)
    (hreadable : (c.getOpenPositions (v.lastRead + 1)).Readable)
    (hw : w.lastRead = v.lastRead + 1)
    (hverify : c.verify (attempts + 1) v = c.verify attempts w) (h : Verifies c attempts w) :
    Verifies c (attempts + 1) v where
  returns := by
    rw [hverify, h.returns]
    refine forall_congr' fun n => ?_
    rw [made_succ hflat hw]
    constructor
    · rintro hall (rfl | hmade)
      · exact hreadable
      · exact hall hmade
    · exact fun hall hmade => hall (.inr hmade)
  verified w' hw' := by
    rw [hverify] at hw'
    exact (h.verified w' hw').succ hflat hw

end

/-- The first read of a verification. -/
theorem made_first (attempts : ℕ) : Made c v (attempts + 1) (v.lastRead + 1) :=
  ⟨by omega, by omega, fun m hm hm' => by omega⟩

/-- A read that fails. -/
theorem verifies_of_none {attempts : ℕ}
    (hread : (c.getOpenPositions (v.lastRead + 1)).positions = none)
    (ih : ∀ w, (w.flat → 0 < attempts) → Verifies c attempts w) :
    Verifies c (attempts + 1) v := by
  have hflat : ¬(c.getOpenPositions (v.lastRead + 1)).Flat := by
    rintro ⟨rows, hrows, -⟩
    cases hread.symm.trans hrows
  have hreadable : (c.getOpenPositions (v.lastRead + 1)).Readable := by
    intro rows hrows
    cases hread.symm.trans hrows
  set message := (c.getOpenPositions (v.lastRead + 1)).message with hmessage
  have herror : (if message = "" then "Position verification failed" else message) ≠ "" := by
    split
    · decide
    · assumption
  have hverify : c.verify (attempts + 1) v = c.verify attempts {
      remaining := v.remaining
      verifyError := if message = "" then "Position verification failed" else message
      lastRead := v.lastRead + 1 } := by
    rw [Callbacks.verify]
    simp only [hread, hmessage]
  refine .succ hflat hreadable rfl hverify (ih _ fun hf => ?_)
  simp [Verification.flat, herror] at hf

/-- A read that shows no position is the last one. -/
theorem verifies_of_flat {attempts : ℕ}
    (hread : (c.getOpenPositions (v.lastRead + 1)).positions = some rows)
    (hsummaries : summarizePositions rows = .ok active) (hempty : active.isEmpty) :
    Verifies c (attempts + 1) v := by
  have hzero := (summarizePositions_isEmpty hsummaries).1 hempty
  have hflat : (c.getOpenPositions (v.lastRead + 1)).Flat := ⟨rows, hread, hzero⟩
  have hverify : c.verify (attempts + 1) v = .ok ⟨active, "", v.lastRead + 1⟩ := by
    rw [Callbacks.verify]
    simp only [hread, hsummaries]
    exact if_pos hempty
  refine ⟨⟨fun _ n hn => ?_, fun _ => ⟨_, hverify⟩⟩, fun w hw => ⟨⟨fun _ => ?_, fun _ => ?_⟩,
    fun _ => ?_⟩⟩
  · -- no other read is made
    obtain ⟨hlt, -, hbefore⟩ := hn
    rcases Nat.eq_or_lt_of_le (Nat.succ_le_of_lt hlt) with rfl | hlt'
    · intro rows' hrows'
      obtain rfl := Option.some.inj (hread.symm.trans hrows')
      exact fun row hrow => ⟨_, hzero row hrow⟩
    · exact absurd hflat (hbefore _ (Nat.lt_succ_self _) hlt')
  · exact ⟨v.lastRead + 1, by omega, by omega, hflat⟩
  · obtain rfl := Except.ok.inj (hverify.symm.trans hw)
    simpa [Verification.flat] using hempty
  · obtain rfl := Except.ok.inj (hverify.symm.trans hw)
    exact hflat

/-- After a read that shows a position, the positions are read again. -/
theorem verifies_of_open {attempts : ℕ}
    (hread : (c.getOpenPositions (v.lastRead + 1)).positions = some rows)
    (hsummaries : summarizePositions rows = .ok active) (hopen : ¬active.isEmpty)
    (ih : ∀ w, (w.flat → 0 < attempts) → Verifies c attempts w) :
    Verifies c (attempts + 1) v := by
  have hflat : ¬(c.getOpenPositions (v.lastRead + 1)).Flat := by
    rintro ⟨rows', hrows', hzero⟩
    obtain rfl := Option.some.inj (hread.symm.trans hrows')
    exact hopen ((summarizePositions_isEmpty hsummaries).2 hzero)
  have hreadable : (c.getOpenPositions (v.lastRead + 1)).Readable := by
    intro rows' hrows'
    obtain rfl := Option.some.inj (hread.symm.trans hrows')
    exact summarizePositions_succeeds.1 ⟨_, hsummaries⟩
  have hverify : c.verify (attempts + 1) v =
      c.verify attempts ⟨active, "", v.lastRead + 1⟩ := by
    rw [Callbacks.verify]
    simp only [hread, hsummaries]
    exact if_neg hopen
  refine .succ hflat hreadable rfl hverify (ih _ fun hf => ?_)
  exact absurd (by simpa [Verification.flat] using hf) hopen

theorem verifies (attempts : ℕ) (v : Verification) (h : v.flat → 0 < attempts) :
    Verifies c attempts v := by
  induction attempts generalizing v with
  | zero =>
    have hopen : ¬v.flat := fun hflat => absurd (h hflat) (lt_irrefl 0)
    refine ⟨⟨fun _ n hn => ?_, fun _ => ⟨v, rfl⟩⟩, fun w hw => ?_⟩
    · obtain ⟨hlt, hle, -⟩ := hn
      omega
    · obtain rfl := Except.ok.inj hw
      refine ⟨⟨fun hflat => absurd hflat hopen, ?_⟩, fun hflat => absurd hflat hopen⟩
      rintro ⟨n, hlt, hle, -⟩
      omega
  | succ attempts ih =>
    rcases hread : (c.getOpenPositions (v.lastRead + 1)).positions with _ | rows
    · exact verifies_of_none hread ih
    rcases hsummaries : summarizePositions rows with e | active
    · -- a size cannot be read, and nothing is returned
      have hunreadable : ¬(c.getOpenPositions (v.lastRead + 1)).Readable := fun hreadable => by
        obtain ⟨active, hactive⟩ := summarizePositions_succeeds.2 (hreadable rows hread)
        cases hsummaries.symm.trans hactive
      have hverify : c.verify (attempts + 1) v = .error e := by
        rw [Callbacks.verify]
        simp only [hread, hsummaries]
        rfl
      refine ⟨⟨?_, fun hall => absurd (hall _ (made_first attempts)) hunreadable⟩, fun w hw => ?_⟩
      · rintro ⟨w, hw⟩
        cases hverify.symm.trans hw
      · cases hverify.symm.trans hw
    · by_cases hempty : active.isEmpty
      · exact verifies_of_flat hread hsummaries hempty
      · exact verifies_of_open hread hsummaries hempty ih

/-! ## When a report is true -/

/-- Every close order was there, and accepted. -/
structure CloseResult.Accepted (r : CloseResult) : Prop where
  ok : r.ok
  present : r.orders ≠ []
  accepted : ∀ order ∈ r.orders, accepted order

variable (repr c) in
/-- A report of success is true: no position is left, and the orders of each symbol that had one
    were cancelled, and its positions closed. Any other report names no symbol as closed. -/
def Truthful (maxVerifyAttempts : ℤ) : Prop :=
  ∃ report, executeVerifiedKillSwitch repr c maxVerifyAttempts = .ok report ∧
    (report.retCode = 0 → (c.getOpenPositions report.lastRead).Flat ∧
      ∀ symbol, (c.getOpenPositions 0).Has repr symbol →
        accepted (c.cancelAll symbol) ∧ (c.closeSymbolPositions symbol).Accepted) ∧
    (report.retCode ≠ 0 → report.closedSymbols = [])

variable (repr c) in
/-- The sizes of all reads that are made can be read; and where the positions are closed, and found
    to be, their orders were cancelled, too. -/
structure CancelsAccepted (attempts : ℕ) : Prop where
  first : (c.getOpenPositions 0).Readable
  others : (c.getOpenPositions 0).Open →
    ∀ n, Made c ⟨[], "", 0⟩ attempts n → (c.getOpenPositions n).Readable
  cancelled : (∃ n, 0 < n ∧ n ≤ attempts ∧ (c.getOpenPositions n).Flat) →
    (∀ symbol, (c.getOpenPositions 0).Has repr symbol →
      (c.closeSymbolPositions symbol).Accepted) →
    ∀ symbol, (c.getOpenPositions 0).Has repr symbol → accepted (c.cancelAll symbol)

theorem failed_eq_false {symbol : String} :
    (c.closeSymbol symbol).failed = false ↔ (c.closeSymbolPositions symbol).Accepted := by
  simp only [SymbolResult.failed, Callbacks.closeSymbol, Bool.or_eq_false_iff, List.any_map,
    List.isEmpty_map, List.any_eq_false, List.isEmpty_eq_false_iff]
  constructor
  · rintro ⟨⟨hok, hpresent⟩, haccepted⟩
    exact ⟨by simpa using hok, hpresent, fun order horder => by simpa using haccepted order horder⟩
  · rintro ⟨hok, hpresent, haccepted⟩
    exact ⟨⟨by simpa using hok, hpresent⟩, fun order horder => by simpa using haccepted order horder⟩

theorem has_iff (hread : (c.getOpenPositions 0).positions = some rows)
    (h : summarizePositions rows = .ok active) {symbol : String} :
    (c.getOpenPositions 0).Has repr symbol ↔ symbol ∈ symbolsOf repr active := by
  rw [mem_symbolsOf h]
  constructor
  · rintro ⟨rows', hrows', hhas⟩
    obtain rfl := Option.some.inj (hread.symm.trans hrows')
    exact hhas
  · exact fun hhas => ⟨rows, hread, hhas⟩

/-- No close failed. -/
theorem closeFailures_isEmpty (hread : (c.getOpenPositions 0).positions = some rows)
    (h : summarizePositions rows = .ok active) :
    (((symbolsOf repr active).map c.closeSymbol).filter (·.failed)).isEmpty ↔
      ∀ symbol, (c.getOpenPositions 0).Has repr symbol →
        (c.closeSymbolPositions symbol).Accepted := by
  simp only [List.isEmpty_iff, List.filter_eq_nil_iff, List.forall_mem_map, Bool.not_eq_true,
    failed_eq_false, has_iff hread h]

/-- A report that names no symbol, of an account without positions that it can see. -/
theorem truthful_iff_of_not_open (hopen : ¬(c.getOpenPositions 0).Open)
    (hreadable : (c.getOpenPositions 0).Readable) {maxVerifyAttempts : ℤ} {report : Report}
    (hreport : executeVerifiedKillSwitch repr c maxVerifyAttempts = .ok report)
    (hclosed : report.closedSymbols = [])
    (hflat : report.retCode = 0 → (c.getOpenPositions report.lastRead).Flat) (attempts : ℕ) :
    Truthful repr c maxVerifyAttempts ↔ CancelsAccepted repr c attempts := by
  have hhas : ∀ symbol, ¬(c.getOpenPositions 0).Has repr symbol := by
    rintro symbol ⟨rows, hrows, row, hrow, hzero, -⟩
    exact hopen ⟨rows, hrows, row, hrow, hzero⟩
  constructor
  · exact fun _ => ⟨hreadable, fun h => absurd h hopen, fun _ _ symbol h => absurd h (hhas symbol)⟩
  · exact fun _ => ⟨report, hreport, fun h => ⟨hflat h, fun symbol hs => absurd hs (hhas symbol)⟩,
      fun _ => hclosed⟩

/-- What the report says of positions that were closed. -/
theorem execute_eq_ok (hread : (c.getOpenPositions 0).positions = some rows)
    (hsummaries : summarizePositions rows = .ok active) (hopen : ¬active.isEmpty)
    {maxVerifyAttempts : ℤ} (hw : c.verify (max 1 maxVerifyAttempts).toNat ⟨[], "", 0⟩ = .ok w) :
    ∃ report, executeVerifiedKillSwitch repr c maxVerifyAttempts = .ok report ∧
      report.lastRead = w.lastRead ∧
      (report.retCode = 0 ↔ w.flat ∧ ∀ symbol, (c.getOpenPositions 0).Has repr symbol →
        (c.closeSymbolPositions symbol).Accepted) ∧
      (report.retCode ≠ 0 → report.closedSymbols = []) := by
  have hcloses := @closeFailures_isEmpty repr _ _ c hread hsummaries
  rw [executeVerifiedKillSwitch]
  simp only [hread, hsummaries, bind, Except.bind, if_neg hopen, hw]
  refine ⟨_, rfl, rfl, ?_, ?_⟩
  · rw [← hcloses]
    simp only [Verification.flat, Bool.and_eq_true]
    split <;> simp_all
  · intro hne
    exact if_neg fun hsuccess => hne (if_pos hsuccess)

/-- A report of positions that were closed. -/
theorem truthful_iff_of_open (hread : (c.getOpenPositions 0).positions = some rows)
    (hsummaries : summarizePositions rows = .ok active) (hopen : ¬active.isEmpty)
    (maxVerifyAttempts : ℤ) : Truthful repr c maxVerifyAttempts ↔
      CancelsAccepted repr c (max 1 maxVerifyAttempts).toNat := by
  have hverifies := @verifies c (max 1 maxVerifyAttempts).toNat ⟨[], "", 0⟩ (by omega)
  -- The first read gave positions, so the switch goes on to cancel, close and verify.
  have hfirst : (c.getOpenPositions 0).Readable := by
    intro rows' hrows'
    obtain rfl := Option.some.inj (hread.symm.trans hrows')
    exact summarizePositions_succeeds.1 ⟨_, hsummaries⟩
  have hsome : (c.getOpenPositions 0).Open := by
    rw [summarizePositions_isEmpty hsummaries] at hopen
    push Not at hopen
    exact ⟨rows, hread, hopen⟩
  constructor
  · rintro ⟨report, hreport, hsuccess, -⟩
    have hreturns : ∃ w, c.verify (max 1 maxVerifyAttempts).toNat ⟨[], "", 0⟩ = .ok w := by
      rw [executeVerifiedKillSwitch] at hreport
      simp only [hread, hsummaries, bind, Except.bind, if_neg hopen] at hreport
      rcases hw : c.verify (max 1 maxVerifyAttempts).toNat ⟨[], "", 0⟩ with e | w
      · rw [hw] at hreport
        cases hreport
      · exact ⟨w, rfl⟩
    obtain ⟨w, hw⟩ := hreturns
    refine ⟨hfirst, fun _ => hverifies.returns.1 ⟨w, hw⟩, fun hflat hcloses symbol hhas => ?_⟩
    obtain ⟨report', hreport', -, hcode, -⟩ := @execute_eq_ok repr _ _ c w hread hsummaries hopen _ hw
    obtain rfl := Except.ok.inj (hreport.symm.trans hreport')
    have hwflat := (hverifies.verified w hw).flat.2 (by simpa using hflat)
    exact ((hsuccess (hcode.2 ⟨hwflat, hcloses⟩)).2 symbol hhas).1
  · rintro ⟨-, hothers, hcancelled⟩
    obtain ⟨w, hw⟩ := hverifies.returns.2 (hothers hsome)
    obtain ⟨report, hreport, hlast, hcode, hclosed⟩ :=
      @execute_eq_ok repr _ _ c w hread hsummaries hopen _ hw
    refine ⟨report, hreport, fun hzero => ?_, hclosed⟩
    obtain ⟨hwflat, hcloses⟩ := hcode.1 hzero
    obtain ⟨n, hpos, hle, hn⟩ := (hverifies.verified w hw).flat.1 hwflat
    refine ⟨hlast ▸ (hverifies.verified w hw).last hwflat, fun symbol hhas =>
      ⟨hcancelled ⟨n, hpos, by simpa using hle, hn⟩ hcloses symbol hhas, hcloses symbol hhas⟩⟩

/-- A report is true exactly if what the kill switch does not look at went well. -/
theorem truthful_iff (repr : PyValue → String) (c : Callbacks) (maxVerifyAttempts : ℤ) :
    Truthful repr c maxVerifyAttempts ↔
      CancelsAccepted repr c (max 1 maxVerifyAttempts).toNat := by
  rcases hread : (c.getOpenPositions 0).positions with _ | rows
  · -- the positions cannot be read
    have hreport := executeVerifiedKillSwitch.eq_1 repr c maxVerifyAttempts
    simp only [hread] at hreport
    refine truthful_iff_of_not_open ?_ ?_ hreport rfl (fun h => absurd h (by simp)) _
    · rintro ⟨rows, hrows, -⟩
      cases hread.symm.trans hrows
    · intro rows hrows
      cases hread.symm.trans hrows
  rcases hsummaries : summarizePositions rows with e | active
  · have hunreadable : ¬(c.getOpenPositions 0).Readable := fun hreadable => by
      obtain ⟨active, hactive⟩ := summarizePositions_succeeds.2 (hreadable rows hread)
      cases hsummaries.symm.trans hactive
    refine ⟨?_, fun h => absurd h.first hunreadable⟩
    rintro ⟨report, hreport, -⟩
    rw [executeVerifiedKillSwitch] at hreport
    simp only [hread, hsummaries] at hreport
    cases hreport
  by_cases hempty : active.isEmpty
  · -- the account is flat
    have hzero := (summarizePositions_isEmpty hsummaries).1 hempty
    have hreport := executeVerifiedKillSwitch.eq_1 repr c maxVerifyAttempts
    simp only [hread, hsummaries, bind, Except.bind, if_pos hempty] at hreport
    refine truthful_iff_of_not_open ?_ ?_ hreport rfl (fun _ => ⟨rows, hread, hzero⟩) _
    · rintro ⟨rows', hrows', row, hrow, hrow'⟩
      obtain rfl := Option.some.inj (hread.symm.trans hrows')
      exact hrow' (hzero row hrow)
    · intro rows' hrows' row hrow
      obtain rfl := Option.some.inj (hread.symm.trans hrows')
      exact ⟨_, hzero row hrow⟩
  · exact truthful_iff_of_open hread hsummaries hempty maxVerifyAttempts

/-- A position is closed, but the request to cancel the orders of its symbol is refused. -/
def refusedCancel : Callbacks where
  getOpenPositions n := ⟨some (if n = 0 then
    [[("symbol", .str "BTCUSDT"), ("side", .str "Buy"), ("size", .str "1")]] else []), "OK"⟩
  cancelAll _ := .dict [("retCode", .int 10006), ("retMsg", .str "Too many visits.")]
  closeSymbolPositions _ := ⟨true, [.dict [("retCode", .int 0), ("retMsg", .str "OK")]]⟩

/-- A refused request to cancel is reported as success. -/
theorem not_truthful : ¬∀ (repr : PyValue → String) (c : Callbacks) (maxVerifyAttempts : ℤ),
    Truthful repr c maxVerifyAttempts := by
  intro h
  obtain ⟨report, hreport, hsuccess, -⟩ := h (fun _ => "") refusedCancel 3
  have hcode : (executeVerifiedKillSwitch (fun _ => "") refusedCancel 3).toOption.any
      (·.retCode = 0) := by decide +kernel
  obtain ⟨report', hreport', hzero⟩ := any_toOption.1 hcode
  obtain rfl := Except.ok.inj (hreport.symm.trans hreport')
  have hhas : (refusedCancel.getOpenPositions 0).Has (fun _ => "") "BTCUSDT" :=
    ⟨_, rfl, _, List.mem_singleton_self _, by decide +kernel, by decide, rfl⟩
  have hrefused : ¬accepted (refusedCancel.cancelAll "BTCUSDT") := by decide
  exact hrefused ((hsuccess (of_decide_eq_true hzero)).2 _ hhas).1

end IntradayBot.KillSwitch
