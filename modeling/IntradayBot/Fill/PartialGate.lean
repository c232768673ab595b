import IntradayBot.Entry.Guards
import IntradayBot.Fill.OrderFill

/-!
# The gate of an unresolved partial close

A partial close that the exchange acknowledged, and that is not seen in the position, is kept
in one slot (`PendingPartial`), and blocks the entries. `entryGate` polls the order once. Where
it is filled, the gate reads the positions, and clears the slot if the position has at most
what the fill leaves of it; where the order ended unfilled, it clears the slot at once.

What clears the slot is not always evidence. A read that fails leaves the gate without a row
of the position, as does one of a position that is gone, and a cancelled order whose quantity
is missing passes for one that executed nothing (`Misleads`).
-/

namespace IntradayBot.Fill

open PyText

/-- The answer to a request for the positions of a symbol. -/
inductive PositionReply
  /-- The request raises an exception, or its answer is no object. -/
  | raised
  /-- `retCode != 0` -/
  | failed (retMsg : String)
  /-- There is no `result`, or no `list` in it. -/
  | noList
  /-- The positions; `none` for one that is no object. -/
  | positions (rows : List (Option PyDict))

/-- `get_symbol_open_positions(symbol)`: the positions, or `None` with a message. -/
def getSymbolOpenPositions : PositionReply → Except String (Option (List PyDict))
  | .raised => .error "exception"
  | .failed _ => .ok none
  | .noList => .ok (some [])
  | .positions rows =>
    match rows.allSome with
    | none => .error "'NoneType' object has no attribute 'get'"
    | some rows => (Entry.openRows rows).map some

/-- `_positions(core, symbol)` -/
def positions (reply : PositionReply) : Option (List PyDict) :=
  match getSymbolOpenPositions reply with
  | .ok rows => rows
  | .error _ => none

/-- `int(x)` -/
def indexOf : PyValue → Except PyError ℤ
  | .bool b => .ok (if b then 1 else 0)
  | .int n => .ok n
  | .float (.finite q) => .ok (q.num.tdiv q.den)
  | .float (.inf _) => .error .overflowError
  | .float .nan => .error .valueError
  | .str s => (PyValue.intOfText s).elim (.error .valueError) .ok
  | .none | .list _ | .dict _ => .error .typeError

/-- `int(expected_idx) == int(actual_idx)`, `False` where one of them is no integer; an
    infinite one raises. -/
def sameIndex (expected actual : PyValue) : Except PyError Bool :=
  match indexOf expected, indexOf actual with
  | .ok m, .ok n => .ok (m = n)
  | .error .overflowError, _ | .ok _, .error .overflowError => .error .overflowError
  | _, _ => .ok false

section texts

variable (repr : PyValue → String)

/-- `str(row.get("symbol") or "")` -/
def symbolOf (row : PyDict) : String := (row.get "symbol").textOrEmpty repr

/-- `str(row.get("side") or "")` -/
def sideOf (row : PyDict) : String := (row.get "side").textOrEmpty repr

/-- `_dec(value)` -/
def decimalOf (value : PyValue) : Option ℚ := (decimalOfText (value.text repr)).join

/-- `_positive(value)` -/
def positiveOf (value : PyValue) : Option ℚ := (decimalOf repr value).filter (0 < ·)

/-- `_matching(rows, position)` -/
def matching (position : PyDict) : List PyDict → Except PyError (Option PyDict)
  | [] => .ok none
  | row :: rows =>
    if symbolOf repr row = symbolOf repr position ∧ sideOf repr row = sideOf repr position then
      match position.get "positionIdx", row.get "positionIdx" with
      | .none, _ | _, .none => .ok (some row)
      | expected, actual => do
        if ← sameIndex expected actual then return some row
        else matching position rows
    else matching position rows

end texts

/-- `_PENDING_PARTIAL`: the order was acknowledged. -/
structure PendingPartial where
  position : PyDict
  orderResult : OrderResult
  acknowledged : orderResult.retCode = some 0

structure GateAnswer where
  ok : Bool
  reason : String
  fill : Option Verification

/-- What the exchange answers to a call of the gate. -/
structure Answers where
  requester : Requester
  positions : PositionReply

section gate

variable (repr : PyValue → String)

/-- The verification of the order that the gate makes. -/
def PendingPartial.verify (pending : PendingPartial) (requester : Requester) : Verification :=
  verifyFinalFill (symbolOf repr pending.position) (some pending.orderResult) requester 1

/-- `initial` -/
def PendingPartial.initial (pending : PendingPartial) : Option ℚ :=
  positiveOf repr (pending.position.get "size")

/-- `executed` -/
def executedOf (fill : Verification) : Option ℚ := (decimal fill.cumExecQty).filter (0 < ·)

/-- The row of the position, `None` where the read failed. -/
def currentRow (position : PyDict) (reply : PositionReply) : Except PyError (Option PyDict) :=
  match positions reply with
  | some rows => matching repr position rows
  | none => .ok none

/-- `size` -/
def sizeOfRow : Option PyDict → Option ℚ
  | some row => positiveOf repr (row.get "size")
  | none => some 0

/-- `expected + tolerance` -/
def mostLeft (initial executed : ℚ) : ℚ :=
  max 0 (initial - executed) + max (1 / 10 ^ 8) (initial * (1 / 10 ^ 6))

/-- `entry_gate(core)`, with the record that it leaves. -/
def entryGate (pending : Option PendingPartial) (answers : Answers) :
    Except PyError GateAnswer × Option PendingPartial :=
  match pending with
  | none => (.ok ⟨true, "No unresolved partial close.", none⟩, none)
  | some record =>
    let fill := record.verify repr answers.requester
    let waiting : GateAnswer :=
      ⟨false, "Partial close filled but position synchronization is pending.", some fill⟩
    if fill.accepted then
      match record.initial repr, executedOf fill with
      | some initial, some executed =>
        match currentRow repr record.position answers.positions with
        | .error e => (.error e, pending)
        | .ok current =>
          if (sizeOfRow repr current).any (· ≤ mostLeft initial executed) then
            (.ok ⟨false, "Partial close is now synchronized; this entry cycle remains blocked.",
              some fill⟩, none)
          else (.ok waiting, pending)
      | _, _ => (.ok waiting, pending)
    else if fill.terminal ∧ ¬fill.unresolved then
      (.ok ⟨true, "Partial close resolved without execution.", some fill⟩, none)
    else (.ok ⟨false, "Partial close remains unresolved: " ++ fill.reason, some fill⟩, pending)

end gate

/-! ## Evidence -/

section evidence

variable (repr : PyValue → String)

/-- The row is known to be of another position. -/
def OtherPosition (position row : PyDict) : Prop :=
  (symbolOf repr row ≠ "" ∧ symbolOf repr row ≠ symbolOf repr position) ∨
    (sideOf repr row ≠ "" ∧ sideOf repr row ≠ sideOf repr position) ∨
    ∃ m n, indexOf (position.get "positionIdx") = .ok m ∧
      indexOf (row.get "positionIdx") = .ok n ∧ m ≠ n

/-- The read is a list of positions, and whatever may be the position in it has at most
    `left`, or nothing. -/
def ShowsReduced (position : PyDict) (left : ℚ) (reply : PositionReply) : Prop :=
  ∃ rows : List PyDict, reply = .positions (rows.map some) ∧
    ∀ row ∈ rows, ¬OtherPosition repr position row →
      ∃ size, decimalOf repr (row.get "size") = some size ∧ 0 ≤ size ∧ (size = 0 ∨ size ≤ left)

/-- The orders that the two requests of the gate find. -/
def rowsRead (requester : Requester) (query : Query) : List StatusRow :=
  [Source.realtime, .history].filterMap fun source =>
    (statusRow source.text (requester 1 source query)).toOption

/-- The order ended, with a quantity of zero. -/
def EndedUnexecuted (row : StatusRow) : Prop :=
  normalizedStatus row.orderStatus ∈ cancelledStatuses ++ rejectedStatuses ∧
    decimal row.cumExecQty = some 0

/-- The order is shown to have ended with no execution, and by no row with one. -/
def ShowsUnexecuted (rows : List StatusRow) : Prop :=
  (∃ row ∈ rows, EndedUnexecuted row) ∧ ∀ row ∈ rows, positive row.cumExecQty = false

variable (pending : PendingPartial) (answers : Answers)

/-- The rows of the order of a pending partial close. -/
abbrev PendingPartial.rows : List StatusRow :=
  rowsRead answers.requester (queryOf (symbolOf repr pending.position) pending.orderResult)

/-- The order is verified as filled by `executed`, out of `initial`. -/
def FilledBy (initial executed : ℚ) : Prop :=
  (pending.verify repr answers.requester).accepted = true ∧ pending.initial repr = some initial ∧
    executedOf (pending.verify repr answers.requester) = some executed

/-- What the pending partial close may be cleared on. -/
def Evidence : Prop :=
  (∃ initial executed, FilledBy repr pending answers initial executed ∧
    ShowsReduced repr pending.position (initial - executed) answers.positions) ∨
  ShowsUnexecuted (pending.rows repr answers)

/-- The call clears the record on evidence, or keeps it and blocks the entries. -/
def ClearsOnEvidence : Prop :=
  match entryGate repr (some pending) answers with
  | (_, none) => Evidence repr pending answers
  | (answer, some record) => record = pending ∧ ∀ a, answer = .ok a → a.ok = false

/-- The gate finds no row of the position, or one that has at most what may be left. -/
def SeesReduced (initial executed : ℚ) : Prop :=
  ∃ current, currentRow repr pending.position answers.positions = .ok current ∧
    ∃ size ∈ sizeOfRow repr current, size ≤ mostLeft initial executed

/-- The order is verified as ended, with nothing that it executed. -/
def EndedUnfilled : Prop :=
  (pending.verify repr answers.requester).accepted = false ∧
    (pending.verify repr answers.requester).terminal = true ∧
    (pending.verify repr answers.requester).unresolved = false

/-- The answers to the call mislead the gate: the order is filled, and the read failed, or does
    not show the position reduced, but the gate sees it so; or the order is verified as ended,
    and no order is found to have ended with a quantity of zero, or one is found with a
    positive quantity. -/
def Misleads : Prop :=
  (∃ initial executed, FilledBy repr pending answers initial executed ∧
    SeesReduced repr pending answers initial executed ∧
    ¬ShowsReduced repr pending.position (initial - executed) answers.positions) ∨
  EndedUnfilled repr pending answers ∧ ¬ShowsUnexecuted (pending.rows repr answers)

variable {repr} {pending} {answers}

variable (repr) in
/-- A verification of one attempt is not terminal, or it is of an order that is found. -/
theorem verify_cases (pending : PendingPartial) (answers : Answers) :
    (pending.verify repr answers.requester).accepted = false ∧
        (pending.verify repr answers.requester).terminal = false ∨
      ∃ row ∈ pending.rows repr answers,
        pending.verify repr answers.requester = classified row 1 := by
  rw [PendingPartial.verify, verifyFinalFill]
  simp only [pending.acknowledged, ne_eq, not_true_eq_false, ↓reduceIte]
  split
  · exact .inl ⟨rfl, rfl⟩
  · simp only [max_self, Int.toNat_one, pollFrom, tsub_zero]
    split
    · rename_i v hv
      obtain ⟨reply, hreply, hclass⟩ := List.mem_filterMap.1 (mem_of_decided hv)
      obtain ⟨row, hrow, rfl⟩ := Option.map_eq_some_iff.1 hclass
      obtain ⟨source, hsource, rfl⟩ := List.mem_map.1 hreply
      exact .inr ⟨row, List.mem_filterMap.2 ⟨source, hsource, hrow⟩, rfl⟩
    · rename_i hnone
      refine .inl ?_
      rcases latest_eq none (polled answers.requester
        (queryOf (symbolOf repr pending.position) pending.orderResult) 1).1 with h | ⟨v, hv, h⟩
      · simp [h, deadline]
      · simp [h, deadline, not_accepted_of_decided hnone v hv]

theorem positive_of_accepted {row : StatusRow} {attempt : ℕ}
    (h : (classified row attempt).accepted = true) : positive row.cumExecQty = true := by
  simp only [classified] at h
  split_ifs at h with hfilled
  exact hfilled.2

/-- An order that is filled is not one that executed nothing. -/
theorem FilledBy.not_unexecuted {initial executed : ℚ}
    (h : FilledBy repr pending answers initial executed) :
    ¬ShowsUnexecuted (pending.rows repr answers) := by
  rintro ⟨_, hall⟩
  rcases verify_cases repr pending answers with ⟨hno, _⟩ | ⟨row, hrow, hv⟩
  · simp [h.1] at hno
  · have hpos := positive_of_accepted (hv ▸ h.1)
    simp [hall row hrow] at hpos

theorem FilledBy.unique {initial executed initial' executed' : ℚ}
    (h : FilledBy repr pending answers initial executed)
    (h' : FilledBy repr pending answers initial' executed') :
    initial' = initial ∧ executed' = executed :=
  ⟨Option.some.inj (h'.2.1.symm.trans h.2.1), Option.some.inj (h'.2.2.symm.trans h.2.2)⟩

/-! ## The gate -/

/-- What the gate does where the order is filled. -/
theorem entryGate_filled {initial executed : ℚ}
    (h : FilledBy repr pending answers initial executed) :
    (∃ answer, entryGate repr (some pending) answers = (answer, none)) ∧
        SeesReduced repr pending answers initial executed ∨
      (∃ answer, entryGate repr (some pending) answers = (answer, some pending) ∧
        ∀ a, answer = .ok a → a.ok = false) ∧
        ¬SeesReduced repr pending answers initial executed := by
  obtain ⟨haccepted, hinitial, hexecuted⟩ := h
  rw [entryGate, SeesReduced]
  simp only [haccepted, hinitial, hexecuted, ↓reduceIte]
  rcases currentRow repr pending.position answers.positions with e | current
  · exact .inr ⟨⟨_, rfl, by simp⟩, by simp⟩
  · -- The gate opens on one number alone: the size the row shows, against the most that can be
    -- left.
    by_cases hsize : ∃ size ∈ sizeOfRow repr current, size ≤ mostLeft initial executed
    · have hany : (sizeOfRow repr current).any (· ≤ mostLeft initial executed) = true := by
        simpa [Option.any_eq_true] using hsize
      simp only [hany, ↓reduceIte]
      exact .inl ⟨⟨_, rfl⟩, current, rfl, hsize⟩
    · have hany : (sizeOfRow repr current).any (· ≤ mostLeft initial executed) = false := by
        rw [← Bool.not_eq_true, Option.any_eq_true]
        simpa using hsize
      simp only [hany, Bool.false_eq_true, ↓reduceIte]
      refine .inr ⟨⟨_, rfl, ?_⟩, ?_⟩
      · rintro a ⟨⟩
        rfl
      · rintro ⟨_, ⟨⟩, hsees⟩
        exact hsize hsees

/-- What the gate does where the order is accepted, and a quantity is missing. -/
theorem entryGate_missing (haccepted : (pending.verify repr answers.requester).accepted = true)
    (h : ∀ initial executed, ¬FilledBy repr pending answers initial executed) :
    ∃ answer, entryGate repr (some pending) answers = (answer, some pending) ∧
      ∀ a, answer = .ok a → a.ok = false := by
  rw [entryGate]
  simp only [haccepted, ↓reduceIte]
  rcases hinitial : pending.initial repr with _ | initial
  · refine ⟨_, rfl, ?_⟩
    rintro a ⟨⟩
    rfl
  · rcases hexecuted : executedOf (pending.verify repr answers.requester) with _ | executed
    · refine ⟨_, rfl, ?_⟩
      rintro a ⟨⟩
      rfl
    · exact absurd ⟨haccepted, hinitial, hexecuted⟩ (h initial executed)

/-- What the gate does where the order is not accepted. -/
theorem entryGate_unfilled
    (haccepted : (pending.verify repr answers.requester).accepted = false) :
    (∃ answer, entryGate repr (some pending) answers = (answer, none)) ∧
        EndedUnfilled repr pending answers ∨
      (∃ answer, entryGate repr (some pending) answers = (answer, some pending) ∧
        ∀ a, answer = .ok a → a.ok = false) ∧
        ¬EndedUnfilled repr pending answers := by
  rw [entryGate, EndedUnfilled]
  simp only [haccepted, Bool.false_eq_true, ↓reduceIte, true_and]
  by_cases hended : (pending.verify repr answers.requester).terminal = true ∧
      (pending.verify repr answers.requester).unresolved = false
  · simp only [hended.1, hended.2, Bool.false_eq_true, not_false_eq_true, and_self, ↓reduceIte,
      and_true]
    exact .inl ⟨_, rfl⟩
  · have hcode : ¬((pending.verify repr answers.requester).terminal = true ∧
        ¬(pending.verify repr answers.requester).unresolved = true) := by
      simpa using hended
    rw [if_neg hcode]
    refine .inr ⟨⟨_, rfl, ?_⟩, hended⟩
    rintro a ⟨⟩
    rfl

theorem clearsOnEvidence_of_kept
    (h : ∃ answer, entryGate repr (some pending) answers = (answer, some pending) ∧
      ∀ a, answer = .ok a → a.ok = false) : ClearsOnEvidence repr pending answers := by
  obtain ⟨answer, hgate, hanswer⟩ := h
  rw [ClearsOnEvidence, hgate]
  exact ⟨rfl, hanswer⟩

theorem clearsOnEvidence_of_cleared
    (h : ∃ answer, entryGate repr (some pending) answers = (answer, none)) :
    ClearsOnEvidence repr pending answers ↔ Evidence repr pending answers := by
  obtain ⟨answer, hgate⟩ := h
  rw [ClearsOnEvidence, hgate]

/-- A call clears the record on evidence unless its answers mislead it. -/
theorem clearsOnEvidence_iff : ClearsOnEvidence repr pending answers ↔
    ¬Misleads repr pending answers := by
  by_cases hfilled : ∃ initial executed, FilledBy repr pending answers initial executed
  · obtain ⟨initial, executed, hfilled⟩ := hfilled
    have hended : ¬EndedUnfilled repr pending answers := by
      rintro ⟨hno, _⟩
      simp [hfilled.1] at hno
    -- The order filled: the gate misleads where it sees a reduction that the rows do not show.
    have hmisleads : Misleads repr pending answers ↔
        SeesReduced repr pending answers initial executed ∧
          ¬ShowsReduced repr pending.position (initial - executed) answers.positions := by
      constructor
      · rintro (⟨i, e, hie, hrest⟩ | ⟨h, _⟩)
        · obtain ⟨rfl, rfl⟩ := hfilled.unique hie
          exact hrest
        · exact absurd h hended
      · exact fun h => .inl ⟨_, _, hfilled, h⟩
    rcases entryGate_filled hfilled with ⟨hgate, hsees⟩ | ⟨hgate, hsees⟩
    · rw [clearsOnEvidence_of_cleared hgate, hmisleads]
      constructor
      · rintro (⟨i, e, hie, hshows⟩ | hshows)
        · obtain ⟨rfl, rfl⟩ := hfilled.unique hie
          exact fun h => h.2 hshows
        · exact absurd hshows hfilled.not_unexecuted
      · intro h
        exact .inl ⟨_, _, hfilled, by_contra fun hno => h ⟨hsees, hno⟩⟩
    · rw [hmisleads]
      exact iff_of_true (clearsOnEvidence_of_kept hgate) fun h => hsees h.1
  · push Not at hfilled
    have hmisleads : Misleads repr pending answers ↔
        EndedUnfilled repr pending answers ∧ ¬ShowsUnexecuted (pending.rows repr answers) :=
      or_iff_right fun ⟨i, e, hie, _⟩ => hfilled i e hie
    have hevidence : Evidence repr pending answers ↔
        ShowsUnexecuted (pending.rows repr answers) :=
      or_iff_right fun ⟨i, e, hie, _⟩ => hfilled i e hie
    rw [hmisleads]
    rcases haccepted : (pending.verify repr answers.requester).accepted with _ | _
    · rcases entryGate_unfilled haccepted with ⟨hgate, hended⟩ | ⟨hgate, hended⟩
      · rw [clearsOnEvidence_of_cleared hgate, hevidence]
        simp [hended]
      · exact iff_of_true (clearsOnEvidence_of_kept hgate) fun h => hended h.1
    · refine iff_of_true (clearsOnEvidence_of_kept (entryGate_missing haccepted hfilled)) ?_
      rintro ⟨⟨hno, _⟩, _⟩
      simp [haccepted] at hno

/-! ## Runs -/

variable (repr) in
/-- The record after calls of the gate with these answers. -/
def recordAfter (record : Option PendingPartial) (l : List Answers) : Option PendingPartial :=
  l.foldl (fun record answers => (entryGate repr record answers).2) record

variable (repr) in
/-- The gate keeps the record, or clears it. -/
theorem record_entryGate (pending : PendingPartial) (answers : Answers) :
    (entryGate repr (some pending) answers).2 = none ∨
      (entryGate repr (some pending) answers).2 = some pending := by
  by_cases hfilled : ∃ initial executed, FilledBy repr pending answers initial executed
  · obtain ⟨initial, executed, hfilled⟩ := hfilled
    rcases entryGate_filled hfilled with ⟨⟨_, hgate⟩, _⟩ | ⟨⟨_, hgate, _⟩, _⟩ <;> simp [hgate]
  · push Not at hfilled
    rcases haccepted : (pending.verify repr answers.requester).accepted with _ | _
    · rcases entryGate_unfilled haccepted with ⟨⟨_, hgate⟩, _⟩ | ⟨⟨_, hgate, _⟩, _⟩ <;> simp [hgate]
    · obtain ⟨_, hgate, _⟩ := entryGate_missing haccepted hfilled
      simp [hgate]

theorem recordAfter_none (l : List Answers) : recordAfter repr none l = none := by
  induction l with
  | nil => rfl
  | cons answers l ih => exact ih

variable (repr) in
/-- A run of calls keeps the record, or clears it. -/
theorem recordAfter_eq (pending : PendingPartial) (l : List Answers) :
    recordAfter repr (some pending) l = none ∨ recordAfter repr (some pending) l = some pending := by
  induction l with
  | nil => exact .inr rfl
  | cons answers l ih =>
    rw [recordAfter, List.foldl_cons, ← recordAfter]
    rcases record_entryGate repr pending answers with h | h
    · rw [h]
      exact .inl (recordAfter_none l)
    · rw [h]
      exact ih

variable (repr) in
/-- In a run of calls, each one that finds the record clears it on evidence, or keeps it and
    blocks the entries. -/
def ClearedOnEvidence (pending : PendingPartial) (l : List Answers) : Prop :=
  ∀ before answers after, l = before ++ answers :: after →
    ∀ record, recordAfter repr (some pending) before = some record →
      record = pending ∧ ClearsOnEvidence repr record answers

/-- The record is cleared on evidence just if no call that finds it is misled. -/
theorem cleared_on_evidence_iff (repr : PyValue → String) (pending : PendingPartial)
    (l : List Answers) : ClearedOnEvidence repr pending l ↔
      ∀ before answers after, l = before ++ answers :: after →
        recordAfter repr (some pending) before ≠ none → ¬Misleads repr pending answers := by
  constructor
  · intro h before answers after hl hrecord
    obtain ⟨record, hsome⟩ := Option.ne_none_iff_exists'.1 hrecord
    obtain ⟨rfl, hclears⟩ := h before answers after hl record hsome
    exact clearsOnEvidence_iff.1 hclears
  · intro h before answers after hl record hsome
    have hkept := (recordAfter_eq repr pending before).resolve_left (by simp [hsome])
    obtain rfl : record = pending := Option.some.inj (hsome.symm.trans hkept)
    exact ⟨rfl, clearsOnEvidence_iff.2 (h before answers after hl (by simp [hsome]))⟩

/-- A partial close of a position of size 1. -/
def examplePending : PendingPartial where
  position := [("symbol", .str "BTCUSDT"), ("side", .str "Buy"), ("size", .str "1"),
    ("positionIdx", .int 0)]
  orderResult := { retCode := some 0, retMsg := "OK", orderId := "close-1", orderLinkId := "" }
  acknowledged := rfl

/-- The order is filled, and the positions are not read. -/
def exampleAnswers : Answers where
  requester _ _ _ := .orders [some
    { orderId := some "close-1"
      orderLinkId := none
      orderStatus := some "Filled"
      cumExecQty := some "0.4"
      avgPrice := some "100" }]
  positions := .failed "Symbol position check failed"

/-- A read of the positions that fails clears the record. -/
theorem not_cleared_on_evidence :
    ¬∀ (repr : PyValue → String) (pending : PendingPartial) (l : List Answers),
      ClearedOnEvidence repr pending l := by
  intro h
  obtain ⟨-, hclears⟩ := h (fun _ => "") examplePending [exampleAnswers] [] exampleAnswers [] rfl
    examplePending rfl
  have hfilled : FilledBy (fun _ => "") examplePending exampleAnswers 1 (2 / 5) := by
    refine ⟨?_, ?_, ?_⟩ <;> decide +kernel
  have hsees : SeesReduced (fun _ => "") examplePending exampleAnswers 1 (2 / 5) :=
    ⟨none, rfl, 0, rfl, by decide +kernel⟩
  have hshows : ¬ShowsReduced (fun _ => "") examplePending.position (1 - 2 / 5)
      exampleAnswers.positions := by
    rintro ⟨rows, hreply, _⟩
    simp [exampleAnswers] at hreply
  exact clearsOnEvidence_iff.1 hclears (.inl ⟨1, 2 / 5, hfilled, hsees, hshows⟩)

end evidence

end IntradayBot.Fill
