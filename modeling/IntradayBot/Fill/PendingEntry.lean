import IntradayBot.Fill.OrderFill

/-!
# The unresolved entry

One slot holds the entry order that is acknowledged and not resolved, and blocks the entries
until it is. It is in memory, and the durable runtime keeps a second copy in the database,
from which the next process takes it. `finalizeEntryOrder` goes through the functions that
the runtime patches, and writes both copies. `pendingFillGuard` clears the slot with the
function that its module imported before it was patched, which clears the memory only.

A call is what it answers and the list of its writes. A process may stop between two of them.
-/

namespace IntradayBot.Fill

open PyText

/-- `_PENDING_ENTRY` -/
structure PendingEntry where
  symbol : String
  orderResult : OrderResult
  verification : Verification
  deriving DecidableEq

/-- The two copies of the entry. -/
structure Slot where
  memory : Option PendingEntry
  stored : Option PendingEntry
  deriving DecidableEq

inductive Write
  | memory (entry : Option PendingEntry)
  | stored (entry : Option PendingEntry)

def Slot.write (slot : Slot) : Write → Slot
  | .memory entry => { slot with memory := entry }
  | .stored entry => { slot with stored := entry }

def Slot.writeAll (slot : Slot) (writes : List Write) : Slot := writes.foldl Slot.write slot

/-- A new process takes the entry from the database. -/
def Slot.restart (slot : Slot) : Slot := { slot with memory := slot.stored }

/-- `_same_pending(left, right)` -/
def SamePending (left right : OrderResult) : Prop :=
  left.orderId ≠ "" ∧ left.orderId = right.orderId ∨
    left.orderLinkId ≠ "" ∧ left.orderLinkId = right.orderLinkId

instance (left right : OrderResult) : Decidable (SamePending left right) :=
  inferInstanceAs (Decidable (_ ∨ _))

/-- `register_pending(symbol, order_result, verification)`, as the runtime patches it. -/
def registerPending (symbol : String) (orderResult : OrderResult) (verification : Verification) :
    List Write :=
  let entry : PendingEntry := ⟨symbol, orderResult, verification⟩
  [.memory (some entry), .stored (some entry)]

/-- `clear_matching(order_result)`, as the runtime patches it. -/
def clearMatching (memory : Option PendingEntry) (orderResult : OrderResult) : List Write :=
  match memory with
  | none => [.stored none]
  | some entry =>
    if SamePending entry.orderResult orderResult then [.memory none, .stored none] else []

/-- `clear_pending_entry()`, as it was before it was patched. -/
def clearPendingEntry : List Write := [.memory none]

/-! ## Entry orders -/

def finalFillBlockCode : ℤ := -1007

/-- `final`, beside the other keys of the order result. -/
structure Final where
  retCode : Option ℤ
  retMsg : String
  exchangeRetCode : Option ℤ
  exchangeRetMsg : String
  fillVerification : Verification
  /-- `finalFilled` and `accepted` -/
  accepted : Bool
  requiresOperatorReview : Bool

/-- `dict(order_result) if isinstance(order_result, dict) else {}` -/
def sourceOf (orderResult : Option OrderResult) : OrderResult :=
  orderResult.getD { retCode := none, retMsg := "", orderId := "", orderLinkId := "" }

/-- What a verification leaves pending. -/
def Registers (source : OrderResult) (verification : Verification) : Prop :=
  verification.accepted = false ∧ verification.unresolved = true ∧ source.retCode = some 0

instance (source : OrderResult) (verification : Verification) :
    Decidable (Registers source verification) := inferInstanceAs (Decidable (_ ∧ _ ∧ _))

/-- `finalize_entry_order(symbol, order_result, requester, attempts)`, with its writes. -/
def finalizeEntryOrder (memory : Option PendingEntry) (symbol : String)
    (orderResult : Option OrderResult) (requester : Requester) (attempts : ℤ) :
    Final × List Write :=
  let source := sourceOf orderResult
  let verification := verifyFinalFill symbol orderResult requester attempts
  if verification.accepted then
    ({ retCode := some 0
       retMsg := "OK: order fully filled"
       exchangeRetCode := source.retCode
       exchangeRetMsg := source.retMsg
       fillVerification := verification
       accepted := true
       requiresOperatorReview := false },
      clearMatching memory source)
  else
    let (retCode, retMsg) :=
      if source.retCode = some 0 then
        (some finalFillBlockCode, "Order not accepted as filled: " ++ verification.reason)
      else if source.retCode = none then
        (some finalFillBlockCode, textOr verification.reason "Order create response invalid")
      else (source.retCode, source.retMsg)
    ({ retCode := retCode
       retMsg := retMsg
       exchangeRetCode := source.retCode
       exchangeRetMsg := source.retMsg
       fillVerification := verification
       accepted := false
       requiresOperatorReview := verification.unresolved },
      if Registers source verification then registerPending symbol source verification else [])

/-! ## The guard -/

/-- A row of the open positions. -/
structure PositionRow where
  symbol : String
  size : Option String

/-- `collect_open_positions(requester)` -/
structure PositionsPayload where
  retCode : ℤ
  rows : List PositionRow

/-- `_positive_size(value)` -/
def positiveSize (size : Option String) : Bool :=
  match size.bind floatOfText with
  | some (.finite q) => q ≠ 0
  | some (.inf _) => true
  | some .nan | none => false

/-- `synchronized` -/
def Synchronized (symbol : String) (positions : PositionsPayload) : Prop :=
  positions.retCode = 0 ∧ ∃ row ∈ positions.rows, row.symbol = symbol ∧ positiveSize row.size

instance (symbol : String) (positions : PositionsPayload) :
    Decidable (Synchronized symbol positions) := inferInstanceAs (Decidable (_ ∧ _))

structure GuardAnswer where
  ok : Bool
  reason : String
  verification : Option Verification

/-- The verification of the pending entry that the guard makes. -/
def PendingEntry.verify (entry : PendingEntry) (requester : Requester) : Verification :=
  verifyFinalFill entry.symbol (some entry.orderResult) requester 1

/-- `_pending_fill_guard()`, with its writes. -/
def pendingFillGuard (memory : Option PendingEntry) (requester : Requester)
    (positions : PositionsPayload) : GuardAnswer × List Write :=
  match memory with
  | none => (⟨true, "No unresolved entry order.", none⟩, [])
  | some entry =>
    let verification := entry.verify requester
    if verification.accepted then
      if Synchronized entry.symbol positions then
        (⟨false,
          "Previous filled entry is now position-synchronized; this cycle remains blocked.",
          some verification⟩, clearPendingEntry)
      else
        (⟨false, "Previous entry is Filled but its non-zero position is not synchronized yet.",
          some verification⟩, [])
    else if verification.terminal ∧ ¬verification.unresolved then
      (⟨true, "Previous entry resolved without a fill.", some verification⟩, clearPendingEntry)
    else
      (⟨false, "Previous entry fill remains unresolved: " ++ verification.reason,
        some verification⟩, [])

/-! ## Runs -/

/-- A call, with the answers that the exchange gives to it. -/
inductive Call
  | finalize (symbol : String) (orderResult : Option OrderResult) (requester : Requester)
      (attempts : ℤ)
  | guard (requester : Requester) (positions : PositionsPayload)

/-- The writes of a call. -/
def Call.writes (memory : Option PendingEntry) : Call → List Write
  | .finalize symbol orderResult requester attempts =>
    (finalizeEntryOrder memory symbol orderResult requester attempts).2
  | .guard requester positions => (pendingFillGuard memory requester positions).2

inductive Happening
  | done (call : Call)
  /-- The process stops after the first `n` writes of a call, and another one starts. -/
  | cut (call : Call) (n : ℕ)
  | restart

/-- What the verifications of a run said of its orders. -/
structure History where
  /-- The acknowledged orders that are unresolved. -/
  unresolved : List OrderResult
  /-- Those that were unresolved, until a verification showed them filled and synchronized, or
      terminal with nothing executed. -/
  resolved : List OrderResult

/-- Two order results of one order. -/
def SameOrder (left right : OrderResult) : Prop := left = right ∨ SamePending left right

instance (left right : OrderResult) : Decidable (SameOrder left right) :=
  inferInstanceAs (Decidable (_ ∨ _))

def History.resolve (history : History) (order : OrderResult) : History where
  unresolved := history.unresolved.filter (¬SameOrder · order)
  resolved := history.unresolved.filter (SameOrder · order) ++ history.resolved

/-- What is resolved without being filled. -/
def Verification.Unfilled (verification : Verification) : Prop :=
  verification.accepted = false ∧ verification.terminal = true ∧ verification.unresolved = false

instance (verification : Verification) : Decidable verification.Unfilled :=
  inferInstanceAs (Decidable (_ ∧ _ ∧ _))

/-- Whether the answers to the guard resolve the pending entry. -/
def PendingEntry.Resolves (entry : PendingEntry) (requester : Requester)
    (positions : PositionsPayload) : Prop :=
  (entry.verify requester).accepted = true ∧ Synchronized entry.symbol positions ∨
    (entry.verify requester).Unfilled

instance (entry : PendingEntry) (requester : Requester) (positions : PositionsPayload) :
    Decidable (entry.Resolves requester positions) := inferInstanceAs (Decidable (_ ∨ _))

/-- The history, after the verification that a call makes. -/
def Call.recorded (memory : Option PendingEntry) (history : History) : Call → History
  | .finalize symbol orderResult requester attempts =>
    let source := sourceOf orderResult
    let verification := verifyFinalFill symbol orderResult requester attempts
    if Registers source verification then
      { history with unresolved := source :: history.unresolved }
    else if verification.Unfilled then history.resolve source
    else history
  | .guard requester positions =>
    match memory with
    | none => history
    | some entry =>
      if entry.Resolves requester positions then history.resolve entry.orderResult else history

structure World where
  slot : Slot
  history : History

def World.after (w : World) : Happening → World
  | .done call =>
    ⟨w.slot.writeAll (call.writes w.slot.memory), call.recorded w.slot.memory w.history⟩
  | .cut call n =>
    ⟨(w.slot.writeAll ((call.writes w.slot.memory).take n)).restart,
      call.recorded w.slot.memory w.history⟩
  | .restart => ⟨w.slot.restart, w.history⟩

def World.run (w : World) (run : List Happening) : World := run.foldl World.after w

/-- A process starts with what is stored. -/
def started (entry : Option PendingEntry) : World :=
  ⟨⟨entry, entry⟩, ⟨(entry.map (·.orderResult)).toList, []⟩⟩

/-! ## The gate -/

/-- The guard lets no entry through on behalf of `order`, until it finds it terminal with
    nothing executed. -/
def Blocks (memory : Option PendingEntry) (order : OrderResult) : Prop :=
  ∃ entry, memory = some entry ∧ entry.orderResult = order ∧
    ∀ requester positions, (pendingFillGuard memory requester positions).1.ok = true →
      (entry.verify requester).Unfilled

/-- The gate is exact and durable: the copies are equal, every unresolved order blocks, nothing
    else is pending, and what was resolved is pending no more. -/
structure Exact (w : World) : Prop where
  durable : w.slot.stored = w.slot.memory
  blocks : ∀ order ∈ w.history.unresolved, Blocks w.slot.memory order
  awaited : ∀ entry ∈ w.slot.memory, entry.orderResult ∈ w.history.unresolved
  released : ∀ order ∈ w.history.resolved, ∀ entry ∈ w.slot.memory,
    ¬SameOrder entry.orderResult order

theorem blocks_iff (memory : Option PendingEntry) (order : OrderResult) :
    Blocks memory order ↔ ∃ entry ∈ memory, entry.orderResult = order := by
  constructor
  · rintro ⟨entry, hentry, horder, -⟩
    exact ⟨entry, hentry, horder⟩
  · rintro ⟨entry, rfl, horder⟩
    refine ⟨entry, rfl, horder, ?_⟩
    intro requester positions hok
    simp only [pendingFillGuard] at hok
    split_ifs at hok with haccepted hsync hterminal
    exact ⟨by simpa using haccepted, hterminal.1, by simpa using hterminal.2⟩

/-! ## Steady runs -/

/-- A call that keeps the gate exact; `whole` if all its writes are made. -/
def Call.Steady (w : World) (whole : Bool) : Call → Prop
  | .finalize symbol orderResult requester attempts =>
    let source := sourceOf orderResult
    let verification := verifyFinalFill symbol orderResult requester attempts
    if verification.accepted then
      -- it does not fill the pending order, which no position was seen of
      whole → ∀ entry ∈ w.slot.memory, ¬SamePending entry.orderResult source
    else if Registers source verification then
      if whole then
        -- no other order is pending, and the order was not resolved before
        (∀ entry ∈ w.slot.memory, entry.orderResult = source) ∧
          ∀ order ∈ w.history.resolved, ¬SameOrder source order
      else ∃ entry ∈ w.slot.memory, entry.orderResult = source
    else verification.Unfilled →
      ∀ entry ∈ w.slot.memory, ¬SameOrder entry.orderResult source
  | .guard requester positions =>
    ∀ entry ∈ w.slot.memory, ¬entry.Resolves requester positions

def World.Steady (w : World) : Happening → Prop
  | .done call => call.Steady w true
  | .cut call n => call.Steady w (decide (2 ≤ n))
  | .restart => True

def World.Steadily (w : World) : List Happening → Prop
  | [] => True
  | h :: run => w.Steady h ∧ (w.after h).Steadily run

/-! ## What a call writes -/

section Writes

variable (memory : Option PendingEntry) (symbol : String) (orderResult : Option OrderResult)
  (requester : Requester) (attempts : ℤ)

theorem finalize_accepted
    (h : (verifyFinalFill symbol orderResult requester attempts).accepted = true) :
    (finalizeEntryOrder memory symbol orderResult requester attempts).2 =
      clearMatching memory (sourceOf orderResult) := by
  simp [finalizeEntryOrder, h]

theorem finalize_registers
    (h : Registers (sourceOf orderResult) (verifyFinalFill symbol orderResult requester attempts)) :
    (finalizeEntryOrder memory symbol orderResult requester attempts).2 =
      registerPending symbol (sourceOf orderResult)
        (verifyFinalFill symbol orderResult requester attempts) := by
  simp [finalizeEntryOrder, h, h.1]

theorem finalize_silent
    (haccepted : (verifyFinalFill symbol orderResult requester attempts).accepted = false)
    (h : ¬Registers (sourceOf orderResult)
      (verifyFinalFill symbol orderResult requester attempts)) :
    (finalizeEntryOrder memory symbol orderResult requester attempts).2 = [] := by
  simp [finalizeEntryOrder, h, haccepted]

/-- What `finalizeEntryOrder` writes, it writes to both copies. -/
theorem finalize_writes :
    (∃ entry, (finalizeEntryOrder memory symbol orderResult requester attempts).2 =
        [.memory entry, .stored entry]) ∨
      memory = none ∧ (finalizeEntryOrder memory symbol orderResult requester attempts).2 =
        [.stored none] ∨
      (finalizeEntryOrder memory symbol orderResult requester attempts).2 = [] := by
  cases haccepted : (verifyFinalFill symbol orderResult requester attempts).accepted with
  | true =>
    rw [finalize_accepted _ _ _ _ _ haccepted]
    cases memory with
    | none => exact .inr (.inl ⟨rfl, rfl⟩)
    | some entry =>
      simp only [clearMatching]
      split
      · exact .inl ⟨none, rfl⟩
      · exact .inr (.inr rfl)
  | false =>
    by_cases h : Registers (sourceOf orderResult)
        (verifyFinalFill symbol orderResult requester attempts)
    · rw [finalize_registers _ _ _ _ _ h]
      exact .inl ⟨_, rfl⟩
    · exact .inr (.inr (finalize_silent _ _ _ _ _ haccepted h))

/-- Where the guard resolves the entry, it clears the memory; otherwise it writes nothing. -/
theorem guard_writes (entry : PendingEntry) (positions : PositionsPayload) :
    (pendingFillGuard (some entry) requester positions).2 =
      if entry.Resolves requester positions then [.memory none] else [] := by
  have hsound := (verifyFinalFill_sound entry.symbol (some entry.orderResult) requester 1).1
  change (entry.verify requester).accepted = true → _ at hsound
  simp only [pendingFillGuard]
  cases haccepted : (entry.verify requester).accepted with
  | true =>
    by_cases hsync : Synchronized entry.symbol positions
    · simp [hsync, haccepted, PendingEntry.Resolves, clearPendingEntry]
    · simp [hsync, haccepted, PendingEntry.Resolves, Verification.Unfilled]
  | false =>
    simp only [PendingEntry.Resolves, Verification.Unfilled, haccepted, clearPendingEntry]
    split_ifs <;> simp_all

end Writes

/-- A call that is cut leaves the copies as the whole call, or as they were. -/
theorem cut_finalize {slot : Slot} (h : slot.stored = slot.memory) (symbol : String)
    (orderResult : Option OrderResult) (requester : Requester) (attempts : ℤ) (n : ℕ) :
    (slot.writeAll
        (((Call.finalize symbol orderResult requester attempts).writes slot.memory).take n)).restart =
      if 2 ≤ n then
        slot.writeAll ((Call.finalize symbol orderResult requester attempts).writes slot.memory)
      else slot := by
  obtain ⟨memory, stored⟩ := slot
  obtain rfl : stored = memory := h
  simp only [Call.writes]
  rcases finalize_writes stored symbol orderResult requester attempts with ⟨entry, he⟩ | ⟨rfl, he⟩ | he
  · rw [he]
    match n with
    | 0 => rfl
    | 1 => rfl
    | n + 2 => simp [Slot.writeAll, Slot.write, Slot.restart]
  · rw [he]
    cases n <;> simp [Slot.writeAll, Slot.write, Slot.restart]
  · simp [he, Slot.writeAll, Slot.restart]

/-! ## One step -/

section Steps

variable {w : World}

/-- Resolving an order that is not pending leaves the gate exact. -/
theorem Exact.resolve_other (h : Exact w) {order : OrderResult}
    (horder : ∀ entry ∈ w.slot.memory, ¬SameOrder entry.orderResult order) :
    Exact ⟨w.slot, w.history.resolve order⟩ := by
  refine ⟨h.durable, ?_, ?_, ?_⟩
  · intro o ho
    exact h.blocks o (List.mem_filter.1 ho).1
  · intro entry hentry
    exact List.mem_filter.2 ⟨h.awaited entry hentry, by simpa using horder entry hentry⟩
  · intro o ho entry hentry
    rcases List.mem_append.1 ho with ho | ho
    · -- an unresolved order is the pending one, which `order` is not
      obtain ⟨ho, hsame⟩ := List.mem_filter.1 ho
      obtain ⟨entry', hentry', rfl⟩ := (blocks_iff _ _).1 (h.blocks o ho)
      exact absurd (by simpa using hsame) (horder entry' hentry')
    · exact h.released o ho entry hentry

/-- Resolving the pending order leaves it pending, unless it is cleared. -/
theorem Exact.not_resolve_same (h : Exact w) {order : OrderResult} {entry : PendingEntry}
    (hentry : entry ∈ w.slot.memory) (hsame : SameOrder entry.orderResult order) {slot : Slot}
    (hslot : slot.memory = w.slot.memory) : ¬Exact ⟨slot, w.history.resolve order⟩ := by
  intro hexact
  have hresolved : entry.orderResult ∈ (w.history.resolve order).resolved :=
    List.mem_append_left _ (List.mem_filter.2 ⟨h.awaited entry hentry, by simpa using hsame⟩)
  exact hexact.released _ hresolved entry (by simpa [hslot] using hentry) (.inl rfl)

/-- Registering an order leaves the gate exact if no other one is pending, and the order was not
    resolved before. -/
theorem Exact.register_iff (h : Exact w) (entry : PendingEntry) :
    Exact ⟨⟨some entry, some entry⟩,
        { w.history with unresolved := entry.orderResult :: w.history.unresolved }⟩ ↔
      (∀ entry' ∈ w.slot.memory, entry'.orderResult = entry.orderResult) ∧
        ∀ order ∈ w.history.resolved, ¬SameOrder entry.orderResult order := by
  constructor
  · intro hexact
    refine ⟨?_, fun order horder => hexact.released order horder entry rfl⟩
    intro entry' hentry'
    have hmem := List.mem_cons_of_mem entry.orderResult (h.awaited entry' hentry')
    obtain ⟨_, hentry, horder⟩ := (blocks_iff _ _).1 (hexact.blocks _ hmem)
    obtain rfl := Option.mem_some_iff.1 hentry
    exact horder.symm
  · -- The slot holds one entry, so the one before it must have waited for the same order.
    rintro ⟨hother, hresolved⟩
    refine ⟨rfl, ?_, ?_, ?_⟩
    · intro order horder
      refine (blocks_iff _ _).2 ⟨entry, rfl, ?_⟩
      rcases List.mem_cons.1 horder with rfl | horder
      · rfl
      · obtain ⟨entry', hentry', rfl⟩ := (blocks_iff _ _).1 (h.blocks order horder)
        exact (hother entry' hentry').symm
    · intro entry' hentry'
      obtain rfl := Option.mem_some_iff.1 hentry'
      exact List.mem_cons_self
    · intro order horder entry' hentry'
      obtain rfl := Option.mem_some_iff.1 hentry'
      exact hresolved order horder

/-- An order that is unresolved and not registered is lost, unless it is the pending one. -/
theorem Exact.lose_iff (h : Exact w) (order : OrderResult) :
    Exact ⟨w.slot, { w.history with unresolved := order :: w.history.unresolved }⟩ ↔
      ∃ entry ∈ w.slot.memory, entry.orderResult = order := by
  rw [← blocks_iff]
  constructor
  · intro hexact
    exact hexact.blocks order List.mem_cons_self
  · intro hblocks
    refine ⟨h.durable, ?_, ?_, h.released⟩
    · intro o ho
      rcases List.mem_cons.1 ho with rfl | ho
      · exact hblocks
      · exact h.blocks o ho
    · intro entry hentry
      exact List.mem_cons_of_mem _ (h.awaited entry hentry)

/-- Clearing both copies loses the pending order. -/
theorem Exact.not_clear (h : Exact w) {entry : PendingEntry} (hentry : entry ∈ w.slot.memory) :
    ¬Exact ⟨⟨none, none⟩, w.history⟩ := by
  intro hexact
  obtain ⟨_, hnone, -⟩ := hexact.blocks _ (h.awaited entry hentry)
  simp at hnone

/-- A filled order clears the slot if it is the pending one, which no position was seen of. -/
theorem Exact.clear_matching_iff (h : Exact w) (source : OrderResult) (whole : Bool) :
    Exact ⟨if whole then w.slot.writeAll (clearMatching w.slot.memory source) else w.slot,
        w.history⟩ ↔
      (whole → ∀ entry ∈ w.slot.memory, ¬SamePending entry.orderResult source) := by
  obtain ⟨⟨memory, stored⟩, history⟩ := w
  obtain rfl : stored = memory := h.durable
  cases whole with
  | false => simpa using h
  | true =>
    cases stored with
    | none => simpa [clearMatching, Slot.writeAll, Slot.write] using h
    | some entry =>
      by_cases hsame : SamePending entry.orderResult source
      · simpa [clearMatching, hsame, Slot.writeAll, Slot.write] using h.not_clear rfl
      · simpa [clearMatching, hsame, Slot.writeAll] using h

theorem finalize_exact_iff (h : Exact w) (symbol : String) (orderResult : Option OrderResult)
    (requester : Requester) (attempts : ℤ) (whole : Bool) :
    Exact
        ⟨if whole then
            w.slot.writeAll
              ((Call.finalize symbol orderResult requester attempts).writes w.slot.memory)
          else w.slot,
          (Call.finalize symbol orderResult requester attempts).recorded w.slot.memory w.history⟩ ↔
      (Call.finalize symbol orderResult requester attempts).Steady w whole := by
  simp only [Call.writes, Call.recorded, Call.Steady]
  cases haccepted : (verifyFinalFill symbol orderResult requester attempts).accepted with
  | true =>
    rw [finalize_accepted _ _ _ _ _ haccepted]
    simpa [Registers, Verification.Unfilled, haccepted] using h.clear_matching_iff _ whole
  | false =>
    -- Not accepted: the order is registered, given up, or left alone.
    by_cases hregisters : Registers (sourceOf orderResult)
        (verifyFinalFill symbol orderResult requester attempts)
    · rw [finalize_registers _ _ _ _ _ hregisters]
      simp only [hregisters, if_true]
      cases whole with
      | true => exact h.register_iff ⟨symbol, sourceOf orderResult, _⟩
      | false => exact h.lose_iff _
    · rw [finalize_silent _ _ _ _ _ haccepted hregisters]
      have hslot : (if whole then w.slot.writeAll [] else w.slot) = w.slot := by
        cases whole <;> rfl
      simp only [hslot, hregisters, if_false, Bool.false_eq_true]
      by_cases hunfilled : (verifyFinalFill symbol orderResult requester attempts).Unfilled
      · simp only [hunfilled, if_true, true_imp_iff]
        constructor
        · intro hexact entry hentry hsame
          exact h.not_resolve_same hentry hsame rfl hexact
        · exact h.resolve_other
      · simpa [hunfilled] using h

/-- A guard that resolves nothing does nothing. -/
theorem guard_silent {memory : Option PendingEntry} {requester : Requester}
    {positions : PositionsPayload} (h : ∀ entry ∈ memory, ¬entry.Resolves requester positions)
    (history : History) :
    (Call.guard requester positions).writes memory = [] ∧
      (Call.guard requester positions).recorded memory history = history := by
  cases memory with
  | none => exact ⟨rfl, rfl⟩
  | some entry =>
    have hentry := h entry rfl
    exact ⟨by simp [Call.writes, guard_writes, hentry], by simp [Call.recorded, hentry]⟩

/-- The guard keeps the gate exact only if it resolves nothing: what it clears, it clears in
    memory, and the database keeps it. -/
theorem guard_exact_iff (h : Exact w) (requester : Requester) (positions : PositionsPayload)
    (whole : Bool) :
    Exact
        ⟨if whole then
            w.slot.writeAll ((Call.guard requester positions).writes w.slot.memory)
          else w.slot,
          (Call.guard requester positions).recorded w.slot.memory w.history⟩ ↔
      (Call.guard requester positions).Steady w whole := by
  constructor
  · intro hexact entry hentry hresolves
    have hmemory : w.slot.memory = some entry := hentry
    have hwrites : (Call.guard requester positions).writes w.slot.memory = [.memory none] := by
      simp [Call.writes, hmemory, guard_writes, hresolves]
    have hrecorded : (Call.guard requester positions).recorded w.slot.memory w.history =
        w.history.resolve entry.orderResult := by
      simp [Call.recorded, hmemory, hresolves]
    rw [hwrites, hrecorded] at hexact
    cases whole with
    | true =>
      -- The guard clears the memory and leaves the file, so the two disagree from now on.
      have hdurable := hexact.durable
      simp [Slot.writeAll, Slot.write, h.durable, hmemory] at hdurable
    | false => exact h.not_resolve_same hentry (.inl rfl) rfl hexact
  · intro hsteady
    obtain ⟨hwrites, hrecorded⟩ := guard_silent hsteady w.history
    rw [hwrites, hrecorded]
    cases whole <;> exact h

/-- A guard that is cut leaves the copies as they were. -/
theorem cut_guard {slot : Slot} (h : slot.stored = slot.memory) (requester : Requester)
    (positions : PositionsPayload) (n : ℕ) :
    (slot.writeAll
        (((Call.guard requester positions).writes slot.memory).take n)).restart = slot := by
  obtain ⟨memory, stored⟩ := slot
  obtain rfl : stored = memory := h
  cases stored with
  | none => simp [Call.writes, pendingFillGuard, Slot.writeAll, Slot.restart]
  | some entry =>
    simp only [Call.writes, guard_writes]
    split
    · cases n <;> simp [Slot.writeAll, Slot.write, Slot.restart]
    · simp [Slot.writeAll, Slot.restart]

/-- One step keeps the gate exact if and only if it is steady. -/
theorem step_exact_iff (h : Exact w) (happening : Happening) :
    Exact (w.after happening) ↔ w.Steady happening := by
  cases happening with
  | done call =>
    cases call with
    | finalize symbol orderResult requester attempts =>
      exact finalize_exact_iff h symbol orderResult requester attempts true
    | guard requester positions => exact guard_exact_iff h requester positions true
  | cut call n =>
    cases call with
    | finalize symbol orderResult requester attempts =>
      have hstep := finalize_exact_iff h symbol orderResult requester attempts (decide (2 ≤ n))
      simp only [decide_eq_true_eq] at hstep
      simp only [World.after, cut_finalize h.durable]
      exact hstep
    | guard requester positions =>
      simp only [World.after, cut_guard h.durable]
      exact guard_exact_iff h requester positions false
  | restart =>
    have hslot : w.slot.restart = w.slot :=
      congrArg (fun entry => ({ w.slot with memory := entry } : Slot)) h.durable
    simpa [World.after, World.Steady, hslot] using h

end Steps

/-! ## Runs -/

theorem started_exact (entry : Option PendingEntry) : Exact (started entry) where
  durable := rfl
  blocks := by
    intro order horder
    cases entry with
    | none => simp [started] at horder
    | some entry =>
      obtain rfl : order = entry.orderResult := by simpa [started] using horder
      exact (blocks_iff _ _).2 ⟨entry, rfl, rfl⟩
  awaited := by
    intro entry' hentry'
    obtain rfl : entry = some entry' := hentry'
    simp [started]
  released := by simp [started]

theorem run_exact_iff {w : World} (h : Exact w) (run : List Happening) :
    (∀ l, l <+: run → Exact (w.run l)) ↔ w.Steadily run := by
  induction run generalizing w with
  | nil =>
    simpa [World.Steadily, World.run] using h
  | cons happening run ih =>
    rw [World.Steadily, ← step_exact_iff h happening]
    constructor
    · intro hall
      have hstep : Exact (w.after happening) := hall [happening] ⟨run, rfl⟩
      refine ⟨hstep, (ih hstep).1 ?_⟩
      intro l hl
      exact hall (happening :: l) (List.cons_prefix_cons.2 ⟨rfl, hl⟩)
    · rintro ⟨hstep, hrun⟩ l hl
      cases l with
      | nil => exact h
      | cons happening' l =>
        obtain ⟨rfl, htail⟩ := List.cons_prefix_cons.1 hl
        exact (ih hstep).2 hrun l htail

/-- From any entry that is stored, the gate is exact and durable in every state of a run if and
    only if the run is steady: no call makes a second order unresolved while one is pending,
    none is cut before the order it registers is stored, and the pending entry is not resolved. -/
theorem gate_exact (entry : Option PendingEntry) (run : List Happening) :
    (∀ l, l <+: run → Exact ((started entry).run l)) ↔ (started entry).Steadily run :=
  run_exact_iff (started_exact entry) run

/-- The answer to an order that is acknowledged, and the order in one status. -/
def acknowledged : OrderResult := ⟨some 0, "OK", "order-1", "link-1", ""⟩
def always (status : String) : Requester := fun _ _ _ =>
  .orders [some ⟨some "order-1", some "link-1", some status, some "0", none⟩]

/-- An order is registered while it is new, and the guard finds it cancelled: the memory is
    cleared, and the database keeps the order, which blocks again after a restart. -/
theorem gate_not_exact :
    ¬∀ (entry : Option PendingEntry) (run : List Happening) (l : List Happening),
      l <+: run → Exact ((started entry).run l) := by
  intro hall
  have hexact := hall none
    [.done (.finalize "BTCUSDT" (some acknowledged) (always "New") 6),
      .done (.guard (always "Cancelled") ⟨0, []⟩)] _ (List.prefix_refl _)
  have hdurable := hexact.durable
  revert hdurable
  decide +kernel

end IntradayBot.Fill
