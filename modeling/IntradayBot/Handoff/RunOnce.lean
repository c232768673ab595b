import IntradayBot.Handoff.Idempotency

/-!
# A run of the handoff

`run_once` looks for an active claim first: one whose order is resolved is completed, any
other one blocks. Without a claim, the next candidate is claimed and its order sent, and every
outcome is written to the claim before the next thing is done (`runOnce`).

A process is a loop of such runs (`processBody`), preceded by the migration of the active claim
where it has just started. The processes that share the store are a system (`handoff`),
which may crash at any point.
-/

namespace IntradayBot.Handoff

open Coop

variable (sha256 : String → String)

/-- `place_demo_order(symbol, side, qty, "setup-worker", …)`: an order that fails its checks
    is rejected without an id. -/
def placeDemoOrder (candidate : Candidate) (binding : Binding) : Proc Resolution := do
  if ← Prog.request (Op.orderChecks candidate) then do
    let orderLinkId ← generateOrderLinkId sha256 binding
    Prog.request (Op.submit candidate orderLinkId)
  else return .noFill

/-- `_archive_and_clear_claim(store, claim)` -/
def archiveAndClearClaim (claim : Claim) : Proc Unit := do
  store (.putLast claim)
  let archived ← present (← store .getLast) "Resolved execution claim could not be archived."
  Prog.require (archived.claimId = claim.claimId)
    "Resolved execution claim could not be archived."
  store .deleteActive

/-- `_complete_resolved_claim(core, setup_worker, store, claim, timestamp)` -/
def completeResolvedClaim (claim : Claim) (timestamp : ℕ) : Proc Unit := do
  if ← Prog.request (Op.removeCandidate claim.candidateKey) then do
    let completed ← transitionClaim sha256 { claim with queueRemovalPending := false } .completed
      timestamp
    archiveAndClearClaim completed
  else do
    let _ ← transitionClaim sha256
      { claim with queueRemovalPending := true, requiresOperatorReview := true } claim.state timestamp
    return ()

/-- `complete_resolved_claim(…, recovery=True)`, as the safety hotfix installs it: the accounting
    of a fill is made up for first. -/
def completeRecoveredClaim (claim : Claim) (timestamp : ℕ) : Proc Unit := do
  if claim.state = .resolvedFilled then do
    let accounted ← Prog.attempt (do
      Prog.request (Op.replayAccounting claim)
      transitionClaim sha256 { claim with requiresOperatorReview := false } .resolvedFilled timestamp)
    match accounted with
    | .ok claim => completeResolvedClaim sha256 claim timestamp
    | .error _ => return ()
  else completeResolvedClaim sha256 claim timestamp

/-- `_recover_or_block_existing_claim(core, setup_worker, store, claim, timestamp)` -/
def recoverOrBlockExistingClaim (claim : Claim) (timestamp : ℕ) : Proc Unit :=
  if claim.state.Settled then completeRecoveredClaim sha256 claim timestamp else return ()

/-- The handler of `run_once`, which holds the claim. -/
def submissionUnknown (claim : Claim) (timestamp : ℕ) : Proc Unit :=
  Prog.handle (do
    let _ ← transitionClaim sha256
      { claim with queueRemovalPending := false, requiresOperatorReview := true } .submissionUnknown
      timestamp
    return ()) fun _ => return ()

/-- `p`, then `next`; what `p` throws makes the outcome of the claim unknown. -/
def holding {α : Type} (claim : Claim) (timestamp : ℕ) (p : Proc α) (next : α → Proc Unit) :
    Proc Unit := do
  match ← Prog.attempt p with
  | .ok a => next a
  | .error _ => submissionUnknown sha256 claim timestamp

/-- The part of `run_once` that sends the order of its claim. -/
def submitClaim (candidate : Candidate) (claim : Claim) (binding : Binding) (timestamp : ℕ) :
    Proc Unit :=
  holding sha256 claim timestamp (do
    let resolution ← placeDemoOrder sha256 candidate binding
    return (resolution, ← transitionClaim sha256 { claim with queueRemovalPending := false }
      .submitted timestamp)) fun (resolution, claim) =>
  holding sha256 claim timestamp (transitionClaim sha256
    { claim with
      fillDecision := some resolution
      queueRemovalPending := resolution ≠ .unresolved
      requiresOperatorReview := resolution = .unresolved } resolution.state timestamp) fun claim =>
  holding sha256 claim timestamp (do
    Prog.request Op.journal
    if resolution = .unresolved then return ()
    else completeResolvedClaim sha256 claim timestamp) fun _ => return ()

/-- `run_once(core, setup_worker)` -/
def runOnce : Proc Unit := do
  let timestamp ← Prog.request Op.time
  if ← store .status then do
    match ← store (.getActive true) with
    | some claim => recoverOrBlockExistingClaim sha256 claim timestamp
    | none => do
      match ← Prog.request Op.candidate with
      | none => return ()
      | some candidate => do
        match ← createClaim sha256 candidate timestamp with
        | none => return ()
        | some (claim, binding) => submitClaim sha256 candidate claim binding timestamp
  else return ()

/-- `_bootstrap_existing_active_claim(store, handoff, timestamp)` -/
def bootstrapExistingActiveClaim (timestamp : ℕ) : Proc Unit := do
  match ← store (.getActive false) with
  | none => return ()
  | some active => do
    let (claim, key, record) ← ensureClaimMetadata sha256 active timestamp
    syncLedger sha256 key record claim timestamp

theorem bootstrapExistingActiveClaim_minor (timestamp : ℕ) :
    Minors (bootstrapExistingActiveClaim sha256 timestamp) := by
  refine .bind getActive_minor fun active => ?_
  cases active with
  | none => exact .ret _
  | some active =>
    exact .bind (ensureClaimMetadata_minor _ _) fun _ => syncLedger_minor _ _ _ _

/-- What a process does again and again. -/
def processBody : Proc Unit := do
  Prog.request Op.release
  if ← Prog.request Op.restarted then
    bootstrapExistingActiveClaim sha256 (← Prog.request Op.time)
  let _ ← Prog.attempt (runOnce sha256)
  Prog.request Op.release

/-- The processes that share the store. -/
def handoff (ι : Type) [DecidableEq ι] : System ι Unit (Durable ι) String Op.Val where
  body _ := processBody sha256
  respond i o w a d := Answers i o w.remote a d
  env w w' := w' = w
  cuts := True

/-- The answers to `i` where nothing fails: orders are filled, and the next candidate and the
    next token are as given. -/
def oblige {ι : Type} [DecidableEq ι] (i : ι) (candidate : Candidate) (token : String) :
    (o : Op) → World Unit (Durable ι) → Option (Except String o.Val × Durable ι)
  | .store o, w => some (.ok (o.perform w.remote.store).1,
      { w.remote with store := (o.perform w.remote.store).2 }.note i o
        (o.perform w.remote.store).1)
  | .restarted, w => some (.ok false, w.remote)
  | .time, w => some (.ok 0, w.remote)
  | .token, w => some (.ok token, w.remote)
  | .candidate, w => some (.ok (some candidate), w.remote)
  | .removeCandidate _, w | .orderChecks _, w => some (.ok true, w.remote)
  | .replayAccounting _, w | .journal, w => some (.ok (), w.remote)
  | .submit c link, w =>
    some (.ok .filled, { w.remote with orders := ⟨c, link⟩ :: w.remote.orders })
  | .release, w =>
    some (.ok (), { w.remote with hands := Function.update w.remote.hands i none })

theorem oblige_fair {ι : Type} [DecidableEq ι] (i : ι) (candidate : Candidate) (token : String) :
    (Move.run i (oblige i candidate token)).Fair (handoff sha256 ι) := by
  intro o w a r h
  cases o with
  | store o =>
    obtain ⟨rfl, rfl⟩ : _ = a ∧ _ = r := by simpa [oblige] using h
    exact .done o _
  | submit c link =>
    obtain ⟨rfl, rfl⟩ : _ = a ∧ _ = r := by simpa [oblige] using h
    exact .submit _ _ _ _
  | release =>
    obtain ⟨rfl, rfl⟩ : _ = a ∧ _ = r := by simpa [oblige] using h
    exact .release _
  | restarted | time | token | candidate | removeCandidate k | orderChecks c
    | replayAccounting c | journal =>
    obtain ⟨rfl, rfl⟩ : _ = a ∧ _ = r := by simpa [oblige] using h
    constructor

/-- A store without claims. -/
def vacant : Durable (Fin 2) where
  store := { active := none, last := none, ledger := fun _ => none, written := fun _ => none }
  orders := []
  reservedBy _ := none
  hands _ := none

end IntradayBot.Handoff
