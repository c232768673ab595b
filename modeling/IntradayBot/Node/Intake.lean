import IntradayBot.Node.HybridRepository

/-!
# Idempotent intake

A candidate is delivered until its delivery is acknowledged, hence maybe more
than once. Intake recognises a candidate by its key, and compares the facts
delivered with the payload kept for the candidate. But that payload is rewritten
by the operations that execute the candidate: the delivery stays a duplicate
only as long as what they write states the facts delivered
(`intake_idempotent_iff`).
-/

namespace IntradayBot.Node

open Coop

namespace HybridRepository

/-- The operations of the repository that may come between two deliveries. -/
inductive Call
  | claim (ownerId : String) (slotId : ℕ)
  | markExecutionPayload (command : Command) (payload : Json)
  | recordOrder (command : Command) (status : String)
  | transition (command : Command) (nextState : CommandState)
  | putManagementState (candidateKey : String) (state : ManagementState)

/-- An operation, whatever it returns. -/
def Call.proc : Call → Proc Unit
  | .claim ownerId slotId => do
    let _ ← HybridRepository.claim ownerId slotId
  | .markExecutionPayload command payload =>
    Prog.modify fun m => (HybridRepository.markExecutionPayload command payload m).2
  | .recordOrder command status => HybridRepository.recordOrder command status
  | .transition command nextState => do
    let _ ← HybridRepository.transition command nextState
  | .putManagementState candidateKey state => HybridRepository.putManagementState candidateKey state

/-- The payload that an operation writes into the entry of a candidate in memory. -/
def Call.written (candidateKey : String) : Call → Option Json
  | .markExecutionPayload command payload =>
    if command.candidateKey = candidateKey then some payload else none
  | .recordOrder command _ | .transition command _ =>
    if command.candidateKey = candidateKey ∧ Json.truthy (some command.payload) then
      some command.payload else none
  | .claim _ _ | .putManagementState _ _ => none

/-- The payload of the entry of a candidate in memory. -/
def storedPayload (candidateKey : String) (m : Memory) : Option Json :=
  (m.direct.get? candidateKey).map Command.payload


section

variable {k : String}

theorem storedPayload_putDirect (c : Command) (m : Memory) :
    storedPayload k (m.putDirect c) =
      if k = c.candidateKey then some c.payload else storedPayload k m := by
  simp only [storedPayload, Memory.putDirect, CommandMap.get?_put]
  split <;> rfl

/-- The segment leaves the payload of `k` in memory alone. -/
def KeepsPayload (k : String) (f : Memory → Memory) : Prop :=
  ∀ m, storedPayload k (f m) = storedPayload k m

theorem Quiet.keepsPayload {f : Memory → Memory} (h : Quiet f) : KeepsPayload k f :=
  fun m => by simp only [storedPayload, h.direct m]

theorem keepsPayload_degrade (message : String) : KeepsPayload k (·.degrade message) :=
  (quiet_degrade message).keepsPayload

theorem keepsPayload_claimDirect (ownerId : String) (slotId : ℕ) :
    KeepsPayload k fun m => (claimDirect ownerId slotId m).2 := by
  intro m
  change storedPayload k (claimDirect ownerId slotId m).2 = _
  unfold claimDirect
  split
  · rename_i stored h
    rw [storedPayload_putDirect]
    split
    · rename_i hk
      rw [hk, storedPayload, (firstAvailable_some h).1]
      rfl
    · rfl
  · rfl

theorem claim_all (ownerId : String) (slotId : ℕ) :
    (claim ownerId slotId).All (KeepsPayload k) fun _ => True := by
  refine .bind (.require _ _) fun _ => .bind (activeCommands_quiet.mono
    (fun _ => Quiet.keepsPayload) fun _ _ => trivial) fun active => ?_
  split
  · exact .ret _
  · refine .bind (.atomically (keepsPayload_claimDirect ownerId slotId))
      fun (direct, usable, now) => ?_
    cases direct with
    | some command => exact .ret _
    | none =>
      dsimp only
      split
      · exact all_orDegrade keepsPayload_degrade
          (.bind (.bind (.require _ _) fun _ => .request trivial) fun _ => .ret _)
      · exact .ret _

theorem storedPayload_putDirect_of_ne (c : Command) (h : c.candidateKey ≠ k) (m : Memory) :
    storedPayload k (m.putDirect c) = storedPayload k m := by
  rw [storedPayload_putDirect, if_neg (Ne.symm h)]

/-- A transition of another candidate. -/
theorem transition_all {command : Command} (h : command.candidateKey ≠ k)
    (nextState : CommandState) :
    (transition command nextState).All (KeepsPayload k) fun _ => True := by
  refine .bind (.atomically fun m => ?_) fun (direct, now) => ?_
  · change storedPayload k (transitionDirect command nextState m).2 = _
    unfold transitionDirect
    split
    · rename_i stored hs
      refine storedPayload_putDirect_of_ne _ ?_ _
      rwa [moved, CommandMap.candidateKey_of_get? hs]
    · split
      · rfl
      · exact storedPayload_putDirect_of_ne (shadow command nextState m.now) h _
  · cases direct with
    | some c => exact .ret _
    | none =>
      -- A failed update leaves a shadow of the same command, hence of another key than `k`.
      refine .handle (.bind ?_ fun _ => .ret _) fun e =>
        .atomically fun m => storedPayload_putDirect_of_ne (shadow command nextState m.now) h _
      unfold ExecutionRepository.transition
      split
      · refine .bind (.request trivial) fun row => ?_
        cases row with
        | some row => exact .ret _
        | none => exact .throw _
      · exact .throw _


/-- An operation run alone, when its calls to the database end as `out` says. -/
def runCall (out : DbOp → Outcome) (c : Call) (w : World Memory Tables) : World Memory Tables :=
  (c.proc.eval (answerDb out) w).2

/-- A sequence of operations. -/
def runCalls : List ((DbOp → Outcome) × Call) → World Memory Tables → World Memory Tables
  | [], w => w
  | c :: calls, w => runCalls calls (runCall c.1 c.2 w)

/-- The payload that a sequence of operations wrote last for a candidate. -/
def lastWritten (candidateKey : String) : List ((DbOp → Outcome) × Call) → Option Json
  | [] => none
  | c :: calls => (lastWritten candidateKey calls).or (c.2.written candidateKey)

/-- What a program whose segments leave the payload alone leaves. -/
theorem storedPayload_eval {p : Proc Unit} {A : Op → Prop} (h : p.All (KeepsPayload k) A)
    (answer : (o : Op) → World Memory Tables → Except JsError o.Val × Tables)
    (w : World Memory Tables) :
    storedPayload k (p.eval answer w).2.mem = storedPayload k w.mem :=
  h.eval answer w (P := fun w' => storedPayload k w'.mem = storedPayload k w.mem)
    (fun _ w' hf hw => (hf w'.mem).trans hw) (fun _ _ _ hw => hw) rfl

/-- The entry of `key` in memory rewritten, with its payload. -/
theorem storedPayload_put_stored {m : Memory} {key : String} {stored stored' : Command}
    (hs : m.direct.get? key = some stored) (hkey : stored'.candidateKey = stored.candidateKey) :
    storedPayload k (m.putDirect stored') =
      if key = k then some stored'.payload else storedPayload k m := by
  rw [storedPayload_putDirect, hkey, CommandMap.candidateKey_of_get? hs]
  simp only [eq_comm]

theorem storedPayload_recordOrderDirect (command : Command) (status : String) (m : Memory) {j : Json}
    (h : storedPayload k m = some j) : storedPayload k (recordOrderDirect command m) =
      some (((Call.recordOrder command status).written k).getD j) := by
  unfold recordOrderDirect
  split
  · rename_i stored hs
    refine (storedPayload_put_stored hs (by rfl)).trans ?_
    by_cases hk : command.candidateKey = k
    · subst hk
      obtain rfl : stored.payload = j := by simpa [storedPayload, hs] using h
      simp only [if_true, Call.written, true_and, payloadOr]
      split <;> rfl
    · simpa [hk, Call.written] using h
  · rename_i hs
    have hk : command.candidateKey ≠ k := by
      rintro rfl
      simp [storedPayload, hs] at h
    simpa [hk, Call.written] using h

theorem storedPayload_markExecutionPayload (command : Command) (payload : Json) (m : Memory)
    {j : Json} (h : storedPayload k m = some j) :
    storedPayload k (markExecutionPayload command payload m).2 =
      some (((Call.markExecutionPayload command payload).written k).getD j) := by
  unfold markExecutionPayload
  split
  · rename_i stored hs
    refine (storedPayload_put_stored hs (by rfl)).trans ?_
    by_cases hk : command.candidateKey = k <;> simp [hk, Call.written, h]
  · rename_i hs
    have hk : command.candidateKey ≠ k := by
      rintro rfl
      simp [storedPayload, hs] at h
    simpa [hk, Call.written] using h

/-- A transition of a candidate in memory writes the payload of the command. -/
theorem storedPayload_moved (command : Command) (nextState : CommandState) {w : World Memory Tables}
    {stored : Command} (hs : w.mem.direct.get? command.candidateKey = some stored)
    (answer : (o : Op) → World Memory Tables → Except JsError o.Val × Tables) :
    storedPayload command.candidateKey ((transition command nextState).eval answer w).2.mem =
      some (payloadOr command.payload stored.payload) := by
  simp [transition, Prog.eval_bind, transitionDirect, hs, storedPayload_put_stored hs, moved]

/-- One operation on a candidate in memory writes what it is said to write. -/
theorem storedPayload_runCall (out : DbOp → Outcome) (c : Call) (w : World Memory Tables) {j : Json}
    (h : storedPayload k w.mem = some j) :
    storedPayload k (runCall out c w).mem = some ((c.written k).getD j) := by
  cases c with
  | claim ownerId slotId =>
    exact (storedPayload_eval (.bind (claim_all ownerId slotId) fun _ => .ret _) _ _).trans h
  | markExecutionPayload command payload =>
    exact storedPayload_markExecutionPayload command payload w.mem h
  | recordOrder command status =>
    have hrest : (if w.mem.usable then
        orDegrade (database (.upsertOrder command.candidateKey status)) () else return ()).All
          (KeepsPayload k) fun _ => True := by
      split
      · exact all_orDegrade keepsPayload_degrade (.request trivial)
      · exact .ret _
    exact (storedPayload_eval hrest _ ⟨recordOrderDirect command w.mem, w.remote⟩).trans
      (storedPayload_recordOrderDirect command status w.mem h)
  | transition command nextState =>
    -- A transition writes the payload of its own command, of any other it writes nothing.
    by_cases hk : command.candidateKey = k
    · subst hk
      obtain ⟨stored, hs, rfl⟩ := Option.map_eq_some_iff.1 h
      rw [show runCall out (.transition command nextState) w =
        ((transition command nextState).eval (answerDb out) w).2 from Prog.eval_bind_done ..,
        storedPayload_moved command nextState hs]
      simp only [Call.written, true_and, payloadOr]
      split <;> rfl
    · rw [Call.written, if_neg fun h => hk h.1, Option.getD_none, ← h]
      exact storedPayload_eval (.bind (transition_all hk nextState) fun _ => .ret _) _ _
  | putManagementState candidateKey state =>
    exact (storedPayload_eval ((putManagementState_quiet candidateKey state).mono
      (fun _ => Quiet.keepsPayload) fun _ h => h) _ _).trans h

/-- A sequence of operations leaves what it wrote last. -/
theorem storedPayload_runCalls (calls : List ((DbOp → Outcome) × Call)) (w : World Memory Tables)
    {j : Json} (h : storedPayload k w.mem = some j) :
    storedPayload k (runCalls calls w).mem = some ((lastWritten k calls).getD j) := by
  induction calls generalizing w j with
  | nil => exact h
  | cons c calls ih =>
    refine (ih _ (storedPayload_runCall c.1 c.2 w h)).trans ?_
    simp only [lastWritten]
    cases lastWritten k calls <;> rfl

end

/-! ## Deliveries -/

/-- The key that a delivery gives: `String(payload?.candidateKey || '').trim()`. -/
def deliveredKey (payload : Json) : String :=
  Json.trim (Json.textOrEmpty (payload.get "candidateKey"))

theorem deliveredKey_of_directCandidateKey {payload : Json} {k : String}
    (h : directCandidateKey payload = .ok k) : deliveredKey payload = k := by
  unfold directCandidateKey at h
  dsimp only at h
  split_ifs at h
  exact Except.ok.inj h

/-- What intake answers about a candidate in memory. -/
theorem accept_stored {payload : Json} {m : Memory} {k : String} {stored : Command}
    (hk : directCandidateKey payload = .ok k) (hs : m.direct.get? k = some stored) :
    acceptDirectCandidate payload m =
      if stored.payload.canonical = payload.canonical then (.ok (stored, true), m)
      else (.error (.error
        "candidateKey already exists with different immutable signal/risk facts"), m) := by
  simp only [acceptDirectCandidate, hk, hs]
  split_ifs <;> simp_all

/-- What intake answers about a new candidate. -/
theorem accept_new {payload : Json} {m : Memory} {k : String}
    (hk : directCandidateKey payload = .ok k) (hs : m.direct.get? k = none) :
    acceptDirectCandidate payload m =
      (.ok (directCommand k payload m.now, false), m.putDirect (directCommand k payload m.now)) := by
  simp only [acceptDirectCandidate, hk, hs]

/-- A candidate that was accepted is in memory, with the facts delivered. -/
theorem storedPayload_accept {payload : Json} {m m' : Memory} {r : Command × Bool}
    (h : acceptDirectCandidate payload m = (.ok r, m')) :
    ∃ k j, directCandidateKey payload = .ok k ∧ storedPayload k m' = some j ∧
      j.canonical = payload.canonical := by
  unfold acceptDirectCandidate at h
  split at h
  · cases h
  · rename_i k hk
    split at h
    · rename_i stored hs
      split at h
      · cases h
      · rename_i he
        cases h
        exact ⟨k, stored.payload, hk, by simp [storedPayload, hs], not_not.1 he⟩
    · cases h
      exact ⟨k, payload, hk, by simp [storedPayload_putDirect, directCommand], rfl⟩

/-- Delivering the payload again is a duplicate, and any other payload of its key is
    rejected; neither changes the repository. -/
structure Idempotent (payload : Json) (m : Memory) : Prop where
  duplicate : ∃ command, acceptDirectCandidate payload m = (.ok (command, true), m)
  rejected : ∀ other, deliveredKey other = deliveredKey payload →
    other.canonical ≠ payload.canonical → ∃ e, acceptDirectCandidate other m = (.error e, m)

/-- Intake stays idempotent after a sequence of operations exactly when the payload
    that they wrote last for the candidate, if any, states the facts delivered. -/
theorem intake_idempotent_iff (payload : Json) (w : World Memory Tables) (r : Command × Bool)
    (m : Memory) (calls : List ((DbOp → Outcome) × Call))
    (h : acceptDirectCandidate payload w.mem = (.ok r, m)) :
    Idempotent payload (runCalls calls ⟨m, w.remote⟩).mem ↔
      ∀ j, lastWritten (deliveredKey payload) calls = some j → j.canonical = payload.canonical := by
  obtain ⟨k, j₀, hk, hs, hj⟩ := storedPayload_accept h
  rw [deliveredKey_of_directCandidateKey hk]
  have hs' := storedPayload_runCalls calls ⟨m, w.remote⟩ hs
  generalize (runCalls calls ⟨m, w.remote⟩).mem = m' at hs' ⊢
  obtain ⟨stored, hst, hp⟩ := Option.map_eq_some_iff.1 hs'
  -- What is stored is the last payload written, or else the delivered one.
  have same : stored.payload.canonical = payload.canonical ↔
      ∀ j, lastWritten k calls = some j → j.canonical = payload.canonical := by
    rw [hp]
    cases lastWritten k calls <;> simp [hj]
  rw [← same]
  constructor
  · rintro ⟨⟨command, hd⟩, -⟩
    by_contra hne
    rw [accept_stored hk hst, if_neg hne] at hd
    cases hd
  · intro he
    refine ⟨⟨stored, by rw [accept_stored hk hst, if_pos he]⟩, fun other hko hne => ?_⟩
    rw [deliveredKey_of_directCandidateKey hk] at hko
    cases ho : directCandidateKey other with
    | error e => exact ⟨e, by simp [acceptDirectCandidate, ho]⟩
    | ok k' =>
      obtain rfl : k' = k := (deliveredKey_of_directCandidateKey ho).symm.trans hko
      exact ⟨_, by rw [accept_stored ho hst, if_neg fun h => hne (h.symm.trans he)]⟩

/-- A delivery, as Entry-Safety approves it. -/
def approvedPayload : Json := .obj [
  ("candidateKey", .str "BTCUSDT-1"), ("symbol", .str "BTCUSDT"), ("side", .str "Buy"),
  ("grade", .str "A"), ("riskApproved", .bool true), ("riskStatus", .str "APPROVED_RISK"),
  ("riskPerTradePct", .num 1), ("orderSubmitted", .bool false)]

/-- The delivery once the executor has sized it. -/
def sizedPayload : Json := approvedPayload.set "nodeSizingStatus" (.str "NODE_SIZING_READY")

/-- A repository without database, and without candidates. -/
def emptyWorld : World Memory Tables := ⟨.started false false 0, ∅⟩

def approvedCommand : Command := directCommand "BTCUSDT-1" approvedPayload 0

theorem directCandidateKey_approvedPayload :
    directCandidateKey approvedPayload = .ok "BTCUSDT-1" := by
  decide +kernel

theorem accept_approvedPayload : acceptDirectCandidate approvedPayload emptyWorld.mem =
    (.ok (approvedCommand, false), emptyWorld.mem.putDirect approvedCommand) :=
  accept_new directCandidateKey_approvedPayload rfl

/-- Once the executor has sized a candidate, its delivery is rejected. -/
theorem intake_not_idempotent : ¬∀ payload (w : World Memory Tables) r m
    (calls : List ((DbOp → Outcome) × Call)), acceptDirectCandidate payload w.mem = (.ok r, m) →
    Idempotent payload (runCalls calls ⟨m, w.remote⟩).mem := by
  intro h
  obtain ⟨⟨command, hd⟩, -⟩ := h approvedPayload emptyWorld _ _
    [(fun _ => .lost "", .markExecutionPayload approvedCommand sizedPayload)] accept_approvedPayload
  have hne : sizedPayload.canonical ≠ approvedPayload.canonical := by decide +kernel
  have hsized : (runCalls [(fun _ => .lost "", .markExecutionPayload approvedCommand sizedPayload)]
      ⟨emptyWorld.mem.putDirect approvedCommand, emptyWorld.remote⟩).mem.direct.get? "BTCUSDT-1" =
        some { approvedCommand with payload := sizedPayload } := rfl
  rw [accept_stored directCandidateKey_approvedPayload hsized, if_neg hne] at hd
  cases hd

/-- While only the payload delivered is recorded, the delivery is a duplicate. -/
theorem intake_idempotent_recorded : Idempotent approvedPayload
    (runCalls [(fun _ => .lost "", .recordOrder approvedCommand "SUBMISSION_INTENT")]
      ⟨emptyWorld.mem.putDirect approvedCommand, emptyWorld.remote⟩).mem := by
  refine (intake_idempotent_iff approvedPayload emptyWorld _ _ _ accept_approvedPayload).2 ?_
  intro j hj
  obtain rfl : approvedPayload = j := Option.some.inj hj
  rfl

end HybridRepository

end IntradayBot.Node
