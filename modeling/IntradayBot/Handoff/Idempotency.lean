import IntradayBot.Handoff.Claims

/-!
# Idempotent claims

The functions of the handoff that touch the store, with the layers that are installed over
them: a candidate is reserved in its record before it is claimed (`createClaim`), every
transition of a claim is written to its record (`transitionClaim`), and the id of an order
is that of the claim that was just made, which is checked again before it is used
(`generateOrderLinkId`).

Fingerprints are digests: `sha256` is a parameter.
-/

namespace IntradayBot.Handoff

open Coop PyText

variable (sha256 : String → String)

/-- `_ledger_key(candidate_key)` -/
def ledgerKey (candidateKey : String) : String := "execution_idempotency_v1:" ++ sha256 candidateKey

/-- `_deterministic_order_link_id(candidate_key)` -/
def deterministicOrderLinkId (candidateKey : String) : String :=
  "cdx-idem-" ++ String.ofList ((sha256 candidateKey).toList.take 27)

/-- `_candidate_key(candidate)` -/
def candidateKeyOf (candidate : Candidate) : Proc String := do
  let key := strip candidate.candidateKey
  Prog.require (key ≠ "") "Execution candidate has no candidateKey."
  Prog.require (key.length ≤ 512) "Execution candidateKey exceeds the safety limit."
  return key

/-- What identifies a record. -/
structure Identity where
  candidateKey : String
  fingerprint : String
  orderLinkId : String
  deriving DecidableEq

/-- The identity of a candidate. -/
def identityOf (candidateKey : String) : Identity where
  candidateKey := candidateKey
  fingerprint := sha256 candidateKey
  orderLinkId := deterministicOrderLinkId sha256 candidateKey

/-- The identity of a record. -/
def LedgerRecord.identity (record : LedgerRecord) : Identity where
  candidateKey := record.candidateKey
  fingerprint := record.fingerprint
  orderLinkId := record.orderLinkId

/-- `_verify_identity(record, candidate_key, fingerprint, order_link_id)` -/
def verifyIdentity (record : LedgerRecord) (identity : Identity) : Proc Unit :=
  Prog.require (record.identity = identity) "Idempotency ledger identity mismatch."

/-- The value, or an error if it is missing. -/
def present {α : Type} (value : Option α) (message : String) : Proc α :=
  match value with
  | some a => return a
  | none => throw message

/-- `_write_record(store, ledger_key, record)` -/
def writeRecord (key : String) (record : LedgerRecord) : Proc Unit := do
  store (.putLedger key record)
  let saved ← present (← store (.getLedger key))
    "Idempotency ledger record could not be reloaded."
  verifyIdentity saved record.identity
  Prog.require (saved.state = record.state) "Idempotency ledger state was not committed."

/-- `_reservation(candidate, timestamp)` -/
def reservation (candidateKey : String) (timestamp : ℕ) : LedgerRecord where
  candidateKey := candidateKey
  fingerprint := sha256 candidateKey
  orderLinkId := deterministicOrderLinkId sha256 candidateKey
  state := .reserved
  claimId := none
  createdAt := timestamp
  updatedAt := timestamp
  requiresOperatorReview := false

/-! ## The active claim -/

/-- `_persist_claim(store, claim)` -/
def persistClaim (claim : Claim) : Proc Claim := do
  store (.putActive claim)
  let saved ← present (← store (.getActive false))
    "Durable execution claim could not be reloaded."
  Prog.require (saved.claimId = claim.claimId) "Durable execution claim identity changed."
  Prog.require (saved.state = claim.state) "Durable execution claim state was not committed."
  return saved

/-- `_same_owner(current, expected)` -/
def SameOwner (current expected : Claim) : Prop :=
  current.claimId = expected.claimId ∧ current.state = expected.state

instance (current expected : Claim) : Decidable (SameOwner current expected) :=
  inferInstanceAs (Decidable (_ ∧ _))

/-- The claim with the identity of its candidate. -/
def enriched (claim : Claim) (candidateKey : String) : Claim :=
  { claim with
    candidateKey := candidateKey
    candidateFingerprint := some (sha256 candidateKey)
    idempotencyLedgerKey := some (ledgerKey sha256 candidateKey)
    orderLinkId := some (deterministicOrderLinkId sha256 candidateKey) }

/-- The record of a claim that has none. -/
def bootstrapRecord (claim : Claim) (candidateKey : String) (timestamp : ℕ) : LedgerRecord :=
  { reservation sha256 candidateKey timestamp with
    state := .recoveredActiveClaim
    createdAt := claim.claimedAt
    claimId := some claim.claimId
    requiresOperatorReview := true }

/-- The key of the candidate of a claim. -/
def claimedKey (current claim : Claim) : Proc String :=
  let text := if current.candidateKey ≠ "" then current.candidateKey else claim.candidateKey
  if strip text ≠ "" then return strip text else candidateKeyOf current.candidate

/-- The record of a claim, made if there is none. -/
def claimedRecord (current : Claim) (candidateKey : String) (timestamp : ℕ) :
    Proc LedgerRecord := do
  match ← store (.getLedger (ledgerKey sha256 candidateKey)) with
  | some record => return record
  | none => do
    let _ ← store (.putLedgerIfAbsent (ledgerKey sha256 candidateKey)
      (bootstrapRecord sha256 current candidateKey timestamp))
    present (← store (.getLedger (ledgerKey sha256 candidateKey)))
      "Idempotency ledger could not be initialized."

/-- `ensure_claim_metadata(handoff, store, claim, timestamp)`, as the race fix installs it. -/
def ensureClaimMetadata (claim : Claim) (timestamp : ℕ) :
    Proc (Claim × String × LedgerRecord) := do
  let current ← present (← store (.getActive false))
    "Legacy active claim ownership changed before idempotency enrichment."
  Prog.require (SameOwner current claim)
    "Legacy active claim ownership changed before idempotency enrichment."
  let candidateKey ← claimedKey current claim
  let key := ledgerKey sha256 candidateKey
  let record ← claimedRecord sha256 current candidateKey timestamp
  verifyIdentity record (identityOf sha256 candidateKey)
  let claim := enriched sha256 current candidateKey
  if claim = current then return (claim, key, record)
  else do
    let swapped ← store (.compareAndSwapActive current claim)
    Prog.require (swapped = true)
      "Legacy active claim ownership changed during idempotency enrichment."
    let saved ← present (← store (.getActive false))
      "Legacy active claim conditional enrichment was not committed."
    Prog.require (SameOwner saved claim)
      "Legacy active claim conditional enrichment was not committed."
    return (saved, key, record)

/-- `value or default` -/
def textOr (value : Option String) (default : String) : String :=
  match value with
  | some text => if text = "" then default else text
  | none => default

/-- The identity that a claim carries. -/
def Claim.identity (claim : Claim) : Identity where
  candidateKey := claim.candidateKey
  fingerprint := textOr claim.candidateFingerprint (sha256 claim.candidateKey)
  orderLinkId := textOr claim.orderLinkId (deterministicOrderLinkId sha256 claim.candidateKey)

/-- `_sync_ledger(store, ledger_key, current, claim, timestamp)` -/
def syncLedger (key : String) (current : LedgerRecord) (claim : Claim) (timestamp : ℕ) :
    Proc Unit := do
  verifyIdentity current (claim.identity sha256)
  writeRecord key
    { current with
      state := .claim claim.state
      updatedAt := timestamp
      claimId := some claim.claimId
      requiresOperatorReview := claim.requiresOperatorReview }

/-- `_transition_claim(store, claim, state, timestamp, **changes)`: `claim` is the claim with
    its changes. -/
def transitionClaim (claim : Claim) (state : ClaimState) (timestamp : ℕ) : Proc Claim := do
  let updated ← persistClaim { claim with state := state, updatedAt := timestamp }
  let (updated, key, record) ← ensureClaimMetadata sha256 updated timestamp
  syncLedger sha256 key record updated timestamp
  return updated

/-! ## Claiming -/

/-- `_create_claim(store, candidate, timestamp)` of the handoff itself; `none` if there is
    another claim. -/
def createActiveClaim (candidate : Candidate) (timestamp : ℕ) : Proc (Option Claim) := do
  let claimId ← Prog.request Op.token
  let claim : Claim :=
    { claimId := claimId
      candidateKey := candidate.candidateKey
      candidate := candidate
      state := .claimed
      claimedAt := timestamp
      updatedAt := timestamp
      fillDecision := none
      queueRemovalPending := false
      requiresOperatorReview := false
      candidateFingerprint := none
      idempotencyLedgerKey := none
      orderLinkId := none }
  if ← store (.putActiveIfAbsent claim) then do
    let saved ← present (← store (.getActive false))
      "Durable candidate claim was not atomically committed."
    Prog.require (saved.claimId = claimId ∧ saved.state = .claimed)
      "Durable candidate claim was not atomically committed."
    return some saved
  else do
    let _ ← store (.getActive false)
    return none

/-- `_claim_binding(claim)`: the identity that an order is sent with. -/
structure Binding where
  claimId : String
  candidateKey : String
  ledgerKey : String
  orderLinkId : String
  deriving DecidableEq

/-- The claim carries the identity of its candidate. -/
def Bindable (claim : Claim) : Prop :=
  claim.claimId ≠ "" ∧ strip claim.candidateKey ≠ "" ∧
    claim.candidateFingerprint = some (sha256 (strip claim.candidateKey)) ∧
    claim.idempotencyLedgerKey = some (ledgerKey sha256 (strip claim.candidateKey)) ∧
    claim.orderLinkId = some (deterministicOrderLinkId sha256 (strip claim.candidateKey))

instance (claim : Claim) : Decidable (Bindable sha256 claim) :=
  inferInstanceAs (Decidable (_ ∧ _ ∧ _ ∧ _ ∧ _))

/-- The binding of such a claim. -/
def bindingOf (claim : Claim) : Binding where
  claimId := claim.claimId
  candidateKey := strip claim.candidateKey
  ledgerKey := ledgerKey sha256 (strip claim.candidateKey)
  orderLinkId := deterministicOrderLinkId sha256 (strip claim.candidateKey)

/-- `_claim_binding(claim)` -/
def claimBinding (claim : Claim) : Proc Binding := do
  Prog.require (Bindable sha256 claim) "Submitting claim failed identity validation."
  return bindingOf sha256 claim

/-- The record of a candidate that is taken is only read to be reported. -/
def reportConflict (candidateKey : String) : Proc Unit := do
  match ← store (.getLedger (ledgerKey sha256 candidateKey)) with
  | some record => verifyIdentity record (identityOf sha256 candidateKey)
  | none => return ()

/-- The claim of a candidate whose record was just reserved. -/
def createReservedClaim (candidate : Candidate) (candidateKey : String) (timestamp : ℕ) :
    Proc (Option (Claim × Binding)) := do
  let key := ledgerKey sha256 candidateKey
  let saved ← present (← store (.getLedger key))
    "Candidate idempotency reservation was not committed."
  verifyIdentity saved (identityOf sha256 candidateKey)
  let claim ← Prog.handle (createActiveClaim candidate timestamp) fun e => do
    writeRecord key
      { saved with
        state := .claimCreationError
        updatedAt := timestamp
        requiresOperatorReview := true }
    throw e
  match claim with
  | none => do
    writeRecord key
      { saved with
        state := .activeClaimConflict
        updatedAt := timestamp
        requiresOperatorReview := true }
    return none
  | some claim => do
    let claim ← persistClaim
      { claim with
        candidateFingerprint := some (sha256 candidateKey)
        idempotencyLedgerKey := some key
        orderLinkId := some (deterministicOrderLinkId sha256 candidateKey) }
    writeRecord key
      { saved with
        state := .claim .claimed
        updatedAt := timestamp
        claimId := some claim.claimId }
    return some (claim, ← claimBinding sha256 claim)

/-- `create_claim(store, candidate, timestamp)`: the claim, and what the thread is bound to;
    `none` if the candidate or the active claim is taken. -/
def createClaim (candidate : Candidate) (timestamp : ℕ) : Proc (Option (Claim × Binding)) := do
  let candidateKey ← candidateKeyOf candidate
  let created ← store (.putLedgerIfAbsent (ledgerKey sha256 candidateKey)
    (reservation sha256 candidateKey timestamp))
  if created then createReservedClaim sha256 candidate candidateKey timestamp
  else do
    reportConflict sha256 candidateKey
    return none

/-! ## The id of the order -/

/-- `_verify_active_ownership(store, handoff, binding)` -/
def verifyActiveOwnership (binding : Binding) : Proc Unit := do
  let active ← present (← store (.getActive false))
    "Setup-worker order id requested without the submitting active claim."
  let activeBinding ← claimBinding sha256 active
  Prog.require (activeBinding = binding)
    "Submitting claim no longer owns the durable active-claim slot."
  Prog.require (active.state = .claimed)
    "Submitting claim is not in the pre-submission CLAIMED state."

/-- `_verify_ledger_ownership(store, binding)` -/
def verifyLedgerOwnership (binding : Binding) : Proc Unit := do
  let record ← present (← store (.getLedger binding.ledgerKey))
    "Permanent idempotency ledger is missing before order submission."
  verifyIdentity record (identityOf sha256 binding.candidateKey)
  Prog.require (record.claimId = some binding.claimId)
    "Permanent idempotency ledger is owned by a different claim."
  Prog.require (record.state = .claim .claimed)
    "Permanent idempotency ledger is not in the CLAIMED state."

/-- `generate_order_link_id("setup-worker")`, of a thread with a binding. -/
def generateOrderLinkId (binding : Binding) : Proc String := do
  verifyActiveOwnership sha256 binding
  verifyLedgerOwnership sha256 binding
  verifyActiveOwnership sha256 binding
  return binding.orderLinkId

/-! ## Minor programs -/

/-- The requests that leave the active claim to its owner, and send no order. -/
def Minor : Op → Prop
  | .store (.putActive _) | .store (.putActiveIfAbsent _) | .store .deleteActive
  | .store (.getActive true) | .submit _ _ | .release => False
  | .store (.compareAndSwapActive expected replacement) => SameOwner replacement expected
  | _ => True

/-- A program that makes only such requests. -/
abbrev Minors {α : Type} (p : Proc α) : Prop := p.All (fun _ => True) Minor

section

variable {sha256 : String → String}

-- the checks of a program are not evaluated
attribute [local irreducible] Prog.require ite

theorem present_minor {α : Type} (value : Option α) (message : String) :
    Minors (present value message) := by
  cases value with
  | some a => exact .ret a
  | none => exact .throw _

theorem getActive_minor : Minors (store (.getActive false)) := .request trivial

theorem getLedger_minor (key : String) : Minors (store (.getLedger key)) := .request trivial

theorem candidateKeyOf_minor (candidate : Candidate) : Minors (candidateKeyOf candidate) :=
  .bind (.require _ _) fun _ => .bind (.require _ _) fun _ => .ret _

theorem writeRecord_minor (key : String) (record : LedgerRecord) :
    Minors (writeRecord key record) :=
  have put : Minors (store (.putLedger key record)) := .request trivial
  .bind put fun _ => .bind (getLedger_minor _) fun _ => .bind (present_minor _ _) fun _ =>
    .bind (.require _ _) fun _ => .require _ _

theorem claimedKey_minor (current claim : Claim) : Minors (claimedKey current claim) := by
  unfold claimedKey
  exact iteInduction (fun _ => .ret _) fun _ => candidateKeyOf_minor _

theorem claimedRecord_minor (current : Claim) (candidateKey : String) (timestamp : ℕ) :
    Minors (claimedRecord sha256 current candidateKey timestamp) := by
  have put : ∀ key record, Minors (store (.putLedgerIfAbsent key record)) := fun _ _ =>
    .request trivial
  refine .bind (getLedger_minor _) fun r => ?_
  cases r with
  | some r => exact .ret _
  | none => exact .bind (put _ _) fun _ => .bind (getLedger_minor _) fun _ => present_minor _ _

/-- A claim is enriched for its owner. -/
theorem ensureClaimMetadata_minor (claim : Claim) (timestamp : ℕ) :
    Minors (ensureClaimMetadata sha256 claim timestamp) := by
  have swap : ∀ current candidateKey,
      Minors (store (.compareAndSwapActive current (enriched sha256 current candidateKey))) :=
    fun _ _ => .request ⟨rfl, rfl⟩
  refine .bind getActive_minor fun _ => .bind (present_minor _ _) fun _ =>
    .bind (.require _ _) fun _ => .bind (claimedKey_minor _ _) fun _ =>
    .bind (claimedRecord_minor _ _ _) fun _ => .bind (.require _ _) fun _ => ?_
  dsimp only
  split
  · exact .ret _
  · exact .bind (swap _ _) fun _ => .bind (.require _ _) fun _ =>
      .bind getActive_minor fun _ => .bind (present_minor _ _) fun _ =>
      .bind (.require _ _) fun _ => .ret _

theorem syncLedger_minor (key : String) (current : LedgerRecord) (claim : Claim)
    (timestamp : ℕ) : Minors (syncLedger sha256 key current claim timestamp) :=
  .bind (.require _ _) fun _ => writeRecord_minor _ _

theorem claimBinding_minor (claim : Claim) : Minors (claimBinding sha256 claim) :=
  .bind (.require _ _) fun _ => .ret _

theorem reportConflict_minor (candidateKey : String) :
    Minors (reportConflict sha256 candidateKey) := by
  refine .bind (getLedger_minor _) fun r => ?_
  cases r with
  | some r => exact .require _ _
  | none => exact .ret _

theorem verifyActiveOwnership_minor (binding : Binding) :
    Minors (verifyActiveOwnership sha256 binding) :=
  .bind getActive_minor fun _ => .bind (present_minor _ _) fun _ =>
    .bind (claimBinding_minor _) fun _ => .bind (.require _ _) fun _ => .require _ _

theorem verifyLedgerOwnership_minor (binding : Binding) :
    Minors (verifyLedgerOwnership sha256 binding) :=
  .bind (getLedger_minor _) fun _ => .bind (present_minor _ _) fun _ =>
    .bind (.require _ _) fun _ => .bind (.require _ _) fun _ => .require _ _

theorem generateOrderLinkId_minor (binding : Binding) :
    Minors (generateOrderLinkId sha256 binding) :=
  .bind (verifyActiveOwnership_minor _) fun _ => .bind (verifyLedgerOwnership_minor _) fun _ =>
    .bind (verifyActiveOwnership_minor _) fun _ => .ret _

end

end IntradayBot.Handoff
