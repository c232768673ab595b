import IntradayBot.Data.OrdMap
import IntradayBot.Data.PyJson
import IntradayBot.Entry.Handoff
import IntradayBot.Entry.Safety
import IntradayBot.Sizing.PositionSizing

/-!
# The command outbox

A pass of the outbox posts the candidates that Entry Safety approved to Node, one after the other
(`deliverOne`), and then publishes those that were sized to PostgreSQL (`mirrorOne`). What Node took
already and what was published before is left alone. The outbox passes again as long as something
is to be retried, or when its inputs change (`due`).

A queue is `Settled` if a pass over it sends nothing.
-/

namespace IntradayBot.Outbox

open Entry (RiskState candidateKeyOf handoffPayload positive sortedKeys)
open PyText
open Sizing (SizingState)

/-! ## The state -/

/-- What `_deliver_direct` counts. -/
structure NodeHandoff where
  delivered : ℕ
  retrying : ℕ
  rejectedInvalid : ℕ
  idempotentDuplicates : ℕ

/-- What `_mirror_postgres` counts. -/
structure PostgresSupport where
  published : ℕ
  idempotentDuplicates : ℕ
  waitingRetry : ℕ
  immutableConflicts : ℕ

/-- Nothing is counted yet. -/
def NodeHandoff.zero : NodeHandoff := ⟨0, 0, 0, 0⟩

/-- Nothing is counted yet. -/
def PostgresSupport.zero : PostgresSupport := ⟨0, 0, 0, 0⟩

/-- `_STATE` -/
structure OutboxState where
  status : String
  /-- `None` is the empty text. -/
  inputFingerprint : String
  nodeHandoff : NodeHandoff
  postgresSupport : PostgresSupport

/-- The state before the first pass. -/
def OutboxState.idle : OutboxState := ⟨"idle", "", .zero, .zero⟩

variable (repr : PyValue → String)

/-- `_canonical(value)` -/
def canonical (value : PyDict) : String := String.ofList (PyJson.dumps repr (.dict value))

/-- `_fingerprint(risk, sizing)` -/
def fingerprint (risk : RiskState) (sizing : SizingState) : String :=
  "risk=" ++ risk.inputFingerprint ++ ":" ++ sortedKeys repr risk.approvedRiskQueue ++
    ";sizing=" ++ sizing.inputFingerprint ++ ":" ++ sortedKeys repr sizing.approvedSizingQueue

/-- `due(core)` -/
def due (risk : RiskState) (sizing : SizingState) (outbox : OutboxState) : Bool :=
  fingerprint repr risk sizing ≠ outbox.inputFingerprint ∨ 0 < outbox.nodeHandoff.retrying ∨
    0 < outbox.postgresSupport.waitingRetry

/-- The state after a pass. -/
def published (inputFingerprint : String) (node : NodeHandoff) (postgres : PostgresSupport) :
    OutboxState where
  status :=
    if 0 < node.retrying ∨ 0 < node.rejectedInvalid ∨ 0 < postgres.waitingRetry then "degraded"
    else if 0 < node.delivered ∨ 0 < postgres.published ∨ 0 < postgres.idempotentDuplicates then
      "ready"
    else "empty"
  inputFingerprint := inputFingerprint
  nodeHandoff := node
  postgresSupport := postgres

/-- The state after a pass that raised: what was published before stays. -/
def OutboxState.failed (outbox : OutboxState) : OutboxState := { outbox with status := "degraded" }

/-! ## Direct delivery -/

/-- The key of a candidate in `_DELIVERED`. -/
def deliveredKey (candidate : PyDict) : String := (candidate.get "candidateKey").textOrEmpty repr

/-- What `_DELIVERED` notes of a candidate that Node takes, if it has a payload. -/
def offerDirect (candidate : PyDict) : Except PyError (Option (String × String)) :=
  (handoffPayload repr candidate).map fun payload =>
    payload.toOption.map fun payload => (deliveredKey repr candidate, canonical repr payload)

/-- What a candidate of `_deliver_direct` leaves. -/
structure Delivery where
  /-- `_DELIVERED` -/
  delivered : OrdMap String String
  report : NodeHandoff
  /-- The key of the candidate, if it is posted. -/
  posted : Option String

/-- One candidate of `_deliver_direct`; `ok` is the answer of Node to a candidate that is posted. -/
def deliverOne (configured ok : Bool) (delivered : OrdMap String String) (report : NodeHandoff)
    (candidate : PyDict) : Except PyError Delivery := do
  match ← offerDirect repr candidate with
  | none =>
    return ⟨delivered, { report with rejectedInvalid := report.rejectedInvalid + 1 }, none⟩
  | some (key, payload) =>
    let retry := { report with retrying := report.retrying + 1 }
    let done := { report with delivered := report.delivered + 1 }
    if delivered.get? key = some payload then
      return ⟨delivered, { done with idempotentDuplicates := report.idempotentDuplicates + 1 }, none⟩
    else if ¬configured then return ⟨delivered, retry, none⟩
    else if ok then return ⟨delivered.set key payload, done, some key⟩
    else return ⟨delivered, retry, some key⟩

/-! ## The mirror -/

/-- A leverage; what is no number is none. -/
def leverageOf (value : PyValue) : Except PyError Double :=
  match (value.orElse (.int 0)).float? with
  | .ok leverage => .ok leverage
  | .error .overflowError => .error .overflowError
  | .error _ => .ok (.finite 0)

/-- `leverage <= 0 or leverage > 10` -/
def leverageInvalid : Double → Bool
  | .finite leverage => leverage ≤ 0 ∨ 10 < leverage
  | .inf _ => true
  | .nan => false

/-- `x != y` -/
def differs : Double → Double → Bool
  | .finite x, .finite y => x ≠ y
  | .inf x, .inf y => x ≠ y
  | _, _ => true

/-- The first field that is not positive. -/
def notPositive (candidate : PyDict) : List String → Except PyError (Option String)
  | [] => .ok none
  | field :: fields => do
    if ← positive (candidate.get field) then notPositive candidate fields
    else return some (field ++ " must be positive")

/-- The part of `_validation_error` about the requirements on Node. -/
def requirementsError (leverage : Double) (requirements : PyValue) :
    Except PyError (Option String) :=
  match requirements with
  | .dict requirements =>
    let requirements : PyDict := requirements
    if ¬(requirements.get "marginMode").isText "ISOLATED" then
      .ok (some "Node execution requirement marginMode must be ISOLATED")
    else do
      if differs (← leverageOf (requirements.get "leverage")) leverage then
        return some "Node execution requirement leverage must match payload leverage"
      else if ¬(requirements.get "revalidateWalletAndInstrumentRules").isTrue then
        return some "Node wallet/instrument revalidation requirement is missing"
      else if ¬(requirements.get "submitOnlyAfterRevalidation").isTrue then
        return some "Node submit-after-revalidation requirement is missing"
      else return none
  | _ => .ok (some "nodeExecutionRequirements are required")

/-- `_validation_error(candidate)` -/
def validationError (candidate : PyDict) : Except PyError (Option String) :=
  if ¬(candidate.get "candidateKey").truthy then .ok (some "candidateKey is required")
  else if ¬(candidate.get "sizingApproved").isTrue then
    .ok (some "Sizing diagnostic output is not ready")
  else if ¬(candidate.get "positionSizingStatus").isText "SIZING_APPROVED" then
    .ok (some ("positionSizingStatus must be SIZING_APPROVED for PostgreSQL " ++
      "compatibility mirroring"))
  else if (candidate.get "grade").textOrEmpty repr ∉ ["A+", "A"] then
    .ok (some "Only A+ and A support payloads may be mirrored")
  else if ¬(candidate.get "executionStatus").isText "AWAITING_NODE_EXECUTION" then
    .ok (some "executionStatus must be AWAITING_NODE_EXECUTION")
  else if ¬(candidate.get "orderSubmitted").isFalse then .ok (some "orderSubmitted must be false")
  else if Json.upperCase ((candidate.get "symbol").textOrEmpty repr) = "" then
    .ok (some "symbol is required")
  else if (candidate.get "side").textOrEmpty repr ∉ ["Buy", "Sell"] then
    .ok (some "side must be Buy or Sell")
  else if ¬(candidate.get "marginMode").isText "ISOLATED" then
    .ok (some "marginMode must be ISOLATED")
  else do
    let leverage ← leverageOf (candidate.get "leverage")
    if leverageInvalid leverage then
      return some "leverage must be positive and no greater than 10x"
    else
      match ← notPositive candidate ["qty", "entryReference", "technicalStopLoss",
        "takeProfitReference", "requiredInitialMarginUsdt"] with
      | some error => return some error
      | none => requirementsError leverage (candidate.get "nodeExecutionRequirements")

/-- The key under which a candidate is published, if it is valid: the store refuses an empty one. -/
def offerMirror (candidate : PyDict) : Except PyError (Option String) :=
  (validationError repr candidate).map fun error =>
    match error with
    | some _ => none
    | none =>
      let key := strip ((candidate.get "candidateKey").text repr)
      if key = "" then none else some key

/-- The answer of PostgreSQL to a command. -/
inductive Write
  | ok
  /-- The write or the read that follows it raises, the one before or after the command is there. -/
  | fails (written : Bool)

/-- What a candidate of `_mirror_postgres` leaves. -/
structure Mirroring where
  /-- The payloads of the commands that exist. -/
  commands : OrdMap String PyDict
  report : PostgresSupport
  /-- The key of the command, if it is published. -/
  created : Option String

/-- One candidate of `_mirror_postgres`: `publish_execution_command` does nothing where the command
    exists. -/
def mirrorOne (write : Write) (commands : OrdMap String PyDict) (report : PostgresSupport)
    (candidate : PyDict) : Except PyError Mirroring := do
  let waiting := { report with waitingRetry := report.waitingRetry + 1 }
  match ← offerMirror repr candidate with
  | none => return ⟨commands, waiting, none⟩
  | some key =>
    match commands.get? key, write with
    | _, .fails false => return ⟨commands, waiting, none⟩
    | none, .fails true => return ⟨commands.set key candidate, waiting, some key⟩
    | some _, .fails true => return ⟨commands, waiting, none⟩
    | none, .ok =>
      return ⟨commands.set key candidate, { report with published := report.published + 1 },
        some key⟩
    | some stored, .ok =>
      if canonical repr stored ≠ canonical repr candidate then
        let conflicts := report.immutableConflicts + 1
        return ⟨commands, { waiting with immutableConflicts := conflicts }, none⟩
      else
        let duplicates := report.idempotentDuplicates + 1
        return ⟨commands, { report with idempotentDuplicates := duplicates }, none⟩

/-! ## Settled queues -/

/-- A pass over the queue sends nothing: all that its candidates offer is known, up to the one where
    the pass raises. -/
def Settled {κ : Type} (offer : PyDict → Except PyError (Option κ)) (known : κ → Prop) :
    List PyDict → Prop
  | [] => True
  | candidate :: queue =>
    match offer candidate with
    | .error _ => True
    | .ok none => Settled offer known queue
    | .ok (some x) => known x ∧ Settled offer known queue

instance decidableSettled {κ : Type} (offer : PyDict → Except PyError (Option κ))
    (known : κ → Prop) [DecidablePred known] :
    ∀ queue, Decidable (Settled offer known queue)
  | [] => inferInstanceAs (Decidable True)
  | candidate :: queue =>
    have := decidableSettled offer known queue
    match h : offer candidate with
    | .error _ => .isTrue (by rw [Settled, h]; trivial)
    | .ok none => decidable_of_iff (Settled offer known queue) (by rw [Settled, h])
    | .ok (some x) => decidable_of_iff (known x ∧ Settled offer known queue) (by rw [Settled, h])

theorem settled_cons {κ : Type} {offer : PyDict → Except PyError (Option κ)} {known : κ → Prop}
    {candidate : PyDict} {queue : List PyDict} {offered : Option κ}
    (h : offer candidate = .ok offered) :
    Settled offer known (candidate :: queue) ↔
      (∀ x ∈ offered, known x) ∧ Settled offer known queue := by
  rw [Settled, h]
  cases offered with
  | none => simp
  | some x => simp

theorem settled_of_error {κ : Type} {offer : PyDict → Except PyError (Option κ)} {known : κ → Prop}
    {candidate : PyDict} {queue : List PyDict} {error : PyError}
    (h : offer candidate = .error error) : Settled offer known (candidate :: queue) := by
  rw [Settled, h]
  trivial

/-! ## What is sent -/

variable {repr} {configured ok : Bool} {delivered : OrdMap String String}
  {commands : OrdMap String PyDict} {candidate : PyDict}

/-- A candidate is posted exactly if Node did not take what it offers. -/
theorem deliverOne_posted {report : NodeHandoff} {d : Delivery}
    (h : deliverOne repr configured ok delivered report candidate = .ok d) :
    ∃ offered, offerDirect repr candidate = .ok offered ∧
      (d.posted = none → d.delivered = delivered) ∧
      (d.posted = none ↔
        (configured → ∀ offer ∈ offered, delivered.get? offer.1 = some offer.2)) := by
  obtain ⟨offered, hoffer, h⟩ := bind_eq_ok.1 h
  refine ⟨offered, hoffer, ?_⟩
  -- Nothing is offered, the payload is known already, no address is set, or it is posted.
  cases offered with
  | none =>
    obtain rfl := Except.ok.inj h
    simp
  | some offer =>
    obtain ⟨key, payload⟩ := offer
    dsimp only at h
    split at h
    · rename_i hknown
      obtain rfl := Except.ok.inj h
      simp [hknown]
    rename_i hnew
    split at h
    · rename_i hunset
      obtain rfl := Except.ok.inj h
      simp [hunset]
    rename_i hset
    split at h
    · obtain rfl := Except.ok.inj h
      simp [hnew, not_not.1 hset]
    · obtain rfl := Except.ok.inj h
      simp [hnew, not_not.1 hset]

/-- A candidate is published only if there is no command for what it offers. -/
theorem mirrorOne_created {report : PostgresSupport} {write : Write} {m : Mirroring}
    (h : mirrorOne repr write commands report candidate = .ok m) :
    ∃ offered, offerMirror repr candidate = .ok offered ∧
      (m.created = none → m.commands = commands) ∧
      ((∀ key ∈ offered, (commands.get? key).isSome) → m.created = none) := by
  obtain ⟨offered, hoffer, h⟩ := bind_eq_ok.1 h
  refine ⟨offered, hoffer, ?_⟩
  -- A row is created for an offered key alone, and not where there is one.
  cases offered with
  | none =>
    obtain rfl := Except.ok.inj h
    simp
  | some key =>
    dsimp only at h
    split at h
    · obtain rfl := Except.ok.inj h
      simp
    · rename_i hnew _
      obtain rfl := Except.ok.inj h
      simp [hnew]
    · obtain rfl := Except.ok.inj h
      simp
    · rename_i hnew _
      obtain rfl := Except.ok.inj h
      simp [hnew]
    · split at h
      · obtain rfl := Except.ok.inj h
        simp
      · obtain rfl := Except.ok.inj h
        simp

/-- A command that does not exist is published, where PostgreSQL answers. -/
theorem mirrorOne_new {report : PostgresSupport} {key : String}
    (hoffer : offerMirror repr candidate = .ok (some key)) (hnew : commands.get? key = none) :
    mirrorOne repr .ok commands report candidate =
      .ok ⟨commands.set key candidate, { report with published := report.published + 1 },
        some key⟩ := by
  rw [mirrorOne, hoffer]
  dsimp only [bind, Except.bind]
  rw [hnew]
  rfl

/-- A candidate whose payload can be built does not end the pass. -/
theorem deliverOne_succeeds {report : NodeHandoff} {offered : Option (String × String)}
    (h : offerDirect repr candidate = .ok offered) :
    Succeeds (deliverOne repr configured ok delivered report candidate) := by
  rw [deliverOne, h]
  cases offered with
  | none => exact ⟨_, rfl⟩
  | some offer =>
    exact Succeeds.ite (fun _ => .ok _) fun _ => .ite (fun _ => .ok _) fun _ =>
      .ite (fun _ => .ok _) fun _ => .ok _

theorem mirrorOne_succeeds {write : Write} {report : PostgresSupport} {offered : Option String}
    (h : offerMirror repr candidate = .ok offered) :
    Succeeds (mirrorOne repr write commands report candidate) := by
  rw [mirrorOne, h]
  cases offered with
  | none => exact ⟨_, rfl⟩
  | some key =>
    dsimp only [bind, Except.bind]
    split
    · exact ⟨_, rfl⟩
    · exact ⟨_, rfl⟩
    · exact ⟨_, rfl⟩
    · exact ⟨_, rfl⟩
    · exact Succeeds.ite (fun _ => .ok _) fun _ => .ok _

end IntradayBot.Outbox
