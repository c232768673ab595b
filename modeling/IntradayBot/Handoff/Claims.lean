import Mathlib.Logic.Function.Basic
import IntradayBot.Coop.System
import IntradayBot.Data.PyText

/-!
# Execution claims

Before the order of a candidate is sent, the candidate is claimed in the durable store that
the processes share: one key holds the claim that is worked on (`Store.active`), and each
candidate has a record of its own that is never removed (`Store.ledger`).

The store runs one statement at a time (`StoreOp.perform`). A call to it may fail, before its
effect or after it (`Answers`). A process may crash between any two of its calls.

`Durable` also keeps ghosts, which no process reads: the state last written of each
claim, who reserved each record, and which claim each process is at work on.
-/

namespace IntradayBot.Handoff

open Coop

/-- The states of a claim. -/
inductive ClaimState
  | claimed
  | submitted
  | unresolved
  | submissionUnknown
  | resolvedFilled
  | resolvedNoFill
  | completed
  deriving DecidableEq, Repr

/-- `_ACTIVE_CLAIM_STATES` -/
def ACTIVE_CLAIM_STATES : List ClaimState := [.claimed, .submitted, .unresolved, .submissionUnknown]

/-- `_RESOLVED_CLAIM_STATES` -/
def RESOLVED_CLAIM_STATES : List ClaimState := [.resolvedFilled, .resolvedNoFill]

/-- The outcome of the order of a claim is not known. -/
abbrev ClaimState.Active (s : ClaimState) : Prop := s ∈ ACTIVE_CLAIM_STATES

/-- A claim found in this state is completed. -/
abbrev ClaimState.Settled (s : ClaimState) : Prop := s ∈ RESOLVED_CLAIM_STATES ∨ s = .completed

/-- What the mandatory fill decision makes of an order. -/
inductive Resolution
  | filled
  | noFill
  | unresolved
  deriving DecidableEq, Repr

/-- The state of a claim whose order is resolved so. -/
def Resolution.state : Resolution → ClaimState
  | filled => .resolvedFilled
  | noFill => .resolvedNoFill
  | unresolved => .unresolved

/-- A confirmed candidate. -/
structure Candidate where
  candidateKey : String
  symbol : String
  side : String
  deriving DecidableEq, Repr

/-- A claim of a candidate. -/
structure Claim where
  claimId : String
  candidateKey : String
  candidate : Candidate
  state : ClaimState
  claimedAt : ℕ
  updatedAt : ℕ
  fillDecision : Option Resolution
  queueRemovalPending : Bool
  requiresOperatorReview : Bool
  candidateFingerprint : Option String
  idempotencyLedgerKey : Option String
  orderLinkId : Option String
  deriving DecidableEq, Repr

/-- The states of the record of a candidate: its own, then those of its claim. -/
inductive LedgerState
  | reserved
  | claimCreationError
  | activeClaimConflict
  | recoveredActiveClaim
  | claim (s : ClaimState)
  deriving DecidableEq, Repr

/-- The record of a candidate. -/
structure LedgerRecord where
  candidateKey : String
  fingerprint : String
  orderLinkId : String
  state : LedgerState
  claimId : Option String
  createdAt : ℕ
  updatedAt : ℕ
  requiresOperatorReview : Bool
  deriving DecidableEq, Repr

/-- The keys of the durable store that the handoff uses; `written` is a ghost, the state last
    written of each claim. -/
structure Store where
  /-- `execution_handoff_active_claim` -/
  active : Option Claim
  /-- `execution_handoff_last_claim` -/
  last : Option Claim
  /-- `execution_idempotency_v1:…` -/
  ledger : String → Option LedgerRecord
  written : String → Option ClaimState

/-- The calls to the store. `getActive recovering` is the read of the active claim: that of
    a process that would recover it, or another one. -/
inductive StoreOp
  | status
  | getActive (recovering : Bool)
  | putActive (c : Claim)
  | putActiveIfAbsent (c : Claim)
  | compareAndSwapActive (expected replacement : Claim)
  | deleteActive
  | putLast (c : Claim)
  | getLast
  | getLedger (key : String)
  | putLedger (key : String) (r : LedgerRecord)
  | putLedgerIfAbsent (key : String) (r : LedgerRecord)

/-- What a call returns. -/
abbrev StoreOp.Val : StoreOp → Type
  | .status | .putActiveIfAbsent _ | .compareAndSwapActive _ _ | .putLedgerIfAbsent _ _ => Bool
  | .getActive _ | .getLast => Option Claim
  | .getLedger _ => Option LedgerRecord
  | .putActive _ | .deleteActive | .putLast _ | .putLedger _ _ => Unit

/-- The store with a claim under the active key. -/
def Store.activate (s : Store) (c : Claim) : Store :=
  { s with active := some c, written := Function.update s.written c.claimId (some c.state) }

/-- What a call does. The status of the store is not its own to choose (`Answers`). -/
def StoreOp.perform : (o : StoreOp) → Store → o.Val × Store
  | .status, s => (true, s)
  | .getActive _, s => (s.active, s)
  | .putActive c, s => ((), s.activate c)
  | .putActiveIfAbsent c, s => if s.active = none then (true, s.activate c) else (false, s)
  | .compareAndSwapActive expected replacement, s =>
    if s.active = some expected then (true, s.activate replacement) else (false, s)
  | .deleteActive, s => ((), { s with active := none })
  | .putLast c, s => ((), { s with last := some c })
  | .getLast, s => (s.last, s)
  | .getLedger key, s => (s.ledger key, s)
  | .putLedger key r, s => ((), { s with ledger := Function.update s.ledger key (some r) })
  | .putLedgerIfAbsent key r, s =>
    if s.ledger key = none then
      (true, { s with ledger := Function.update s.ledger key (some r) })
    else (false, s)

/-- An order sent to the exchange. -/
structure PlacedOrder where
  candidate : Candidate
  orderLinkId : String
  deriving DecidableEq

/-- What a process asks for. -/
inductive Op
  | store (o : StoreOp)
  /-- Whether the process has just started. -/
  | restarted
  /-- `int(time.time())` -/
  | time
  /-- `secrets.token_hex(16)` -/
  | token
  /-- The candidate at the head of the queue, if all that is checked before it is claimed
      allows it. -/
  | candidate
  /-- `remove_exact_candidate(setup_worker, candidate_key)` -/
  | removeCandidate (candidateKey : String)
  /-- `_replay_filled_accounting(core, handoff, claim, timestamp)` -/
  | replayAccounting (c : Claim)
  /-- Whether an order for the candidate passes the checks made before it has an id. -/
  | orderChecks (c : Candidate)
  /-- `bybit_request("POST", "/v5/order/create", order)`, and the fill decision on what follows. -/
  | submit (c : Candidate) (orderLinkId : String)
  /-- The journal entry and the state of the bot after the order. -/
  | journal
  /-- A ghost: the process is at work on no claim. -/
  | release

/-- What it is answered. -/
abbrev Op.Val : Op → Type
  | .store o => o.Val
  | .restarted | .removeCandidate _ | .orderChecks _ => Bool
  | .time => ℕ
  | .token => String
  | .candidate => Option Candidate
  | .submit _ _ => Resolution
  | .replayAccounting _ | .journal | .release => Unit

/-- The store, what was sent to the exchange, and the ghosts: the process that reserved
    each record, and the claim that each process is at work on. -/
structure Durable (ι : Type) where
  store : Store
  orders : List PlacedOrder
  reservedBy : String → Option ι
  hands : ι → Option String

section

variable {ι : Type} [DecidableEq ι]

/-- The ghosts after the call of a process returned. -/
def Durable.note (d : Durable ι) (i : ι) : (o : StoreOp) → o.Val → Durable ι
  | .getActive true, some c =>
    if c.state.Settled then { d with hands := Function.update d.hands i (some c.claimId) } else d
  | .putActiveIfAbsent c, true => { d with hands := Function.update d.hands i (some c.claimId) }
  | .deleteActive, () => { d with hands := Function.update d.hands i none }
  | .putLedgerIfAbsent key _, true =>
    { d with reservedBy := Function.update d.reservedBy key (some i) }
  | _, _ => d

@[simp] theorem orders_note (d : Durable ι) (i : ι) (o : StoreOp) (v : o.Val) :
    (d.note i o v).orders = d.orders := by
  unfold Durable.note
  split <;> first | rfl | (split <;> rfl)

@[simp] theorem store_note (d : Durable ι) (i : ι) (o : StoreOp) (v : o.Val) :
    (d.note i o v).store = d.store := by
  unfold Durable.note
  split <;> first | rfl | (split <;> rfl)

/-- The answers to a process. -/
inductive Answers (i : ι) : (o : Op) → Durable ι → Except String o.Val → Durable ι → Prop
  | done (o : StoreOp) (d : Durable ι) : Answers i (.store o) d (.ok (o.perform d.store).1)
      ({ d with store := (o.perform d.store).2 }.note i o (o.perform d.store).1)
  /-- The store is not available. -/
  | unavailable (d : Durable ι) : Answers i (.store .status) d (.ok false) d
  /-- The call fails before its effect. -/
  | lost (o : StoreOp) (d : Durable ι) (e : String) : Answers i (.store o) d (.error e) d
  /-- The call fails after its effect. -/
  | unacknowledged (o : StoreOp) (d : Durable ι) (e : String) :
      Answers i (.store o) d (.error e) { d with store := (o.perform d.store).2 }
  | restarted (d : Durable ι) (b : Bool) : Answers i .restarted d (.ok b) d
  | time (d : Durable ι) (n : ℕ) : Answers i .time d (.ok n) d
  | token (d : Durable ι) (t : String) : Answers i .token d (.ok t) d
  | candidate (d : Durable ι) (a : Except String (Option Candidate)) : Answers i .candidate d a d
  | removeCandidate (d : Durable ι) (k : String) (a : Except String Bool) :
      Answers i (.removeCandidate k) d a d
  | replayAccounting (d : Durable ι) (c : Claim) (a : Except String Unit) :
      Answers i (.replayAccounting c) d a d
  | orderChecks (d : Durable ι) (c : Candidate) (a : Except String Bool) :
      Answers i (.orderChecks c) d a d
  | submit (d : Durable ι) (c : Candidate) (link : String) (a : Except String Resolution) :
      Answers i (.submit c link) d a { d with orders := ⟨c, link⟩ :: d.orders }
  | journal (d : Durable ι) (a : Except String Unit) : Answers i .journal d a d
  | release (d : Durable ι) : Answers i .release d (.ok ())
      { d with hands := Function.update d.hands i none }

end

/-- The functions of the handoff. -/
abbrev Proc (α : Type) := Prog Unit String Op.Val α

/-- A call to the store. -/
def store (o : StoreOp) : Proc o.Val := Prog.request (Op.store o)

end IntradayBot.Handoff
