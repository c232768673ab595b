import IntradayBot.Replay.Retries

/-!
# Sessions that are reset

A reset takes the session back to its start, and waits for no step: the one under way, and
those that were left unfinished, may still write to the session. Where all recorded requests are
finalized, and none is about to mark the session (`Clean`), none of them ever does
(`Isolated`).
-/

namespace IntradayBot.Replay

open Engine Simulation

variable {ctx : Decimal.Context} {db db' : Db} {n : ℕ} {stored : StoredStep}

/-! ## Requests of before the reset -/

/-- The request that a phase works for. -/
def Engine.Phase.requestId? : Phase → Option String
  | .idle | .returned _ => none
  | .preflight request | .advance request => some request.requestId
  | .strategy x | .execution _ x | .finalize _ x | .recover x _ => some x.requestId

/-- All requests are finalized, and none is about to mark the session. -/
def Clean (s : State) : Prop := AllFinalized s.db ∧ ¬ s.phase.recovers

instance : DecidablePred Clean := fun _ => inferInstanceAs (Decidable (_ ∧ _))

/-- What is seen of a session, its trades and events. -/
structure SameView (db db' : Db) : Prop where
  status : db'.session.status = db.session.status
  balance : db'.session.balance = db.session.balance
  equity : db'.session.equity = db.session.equity
  summary : db'.session.summary = db.session.summary
  trades : db'.trades = db.trades
  events : db'.events = db.events

/-- From the state on, no step for a recorded request changes what is seen. -/
def Isolated (ctx : Decimal.Context) (recorded : OrdMap String StoredStep) (s : State) : Prop :=
  ∀ t, Run ctx (fun _ _ _ => True) s t → ∀ id ∈ t.phase.requestId?, (recorded.get? id).isSome →
    ∀ l t', Step ctx t l t' → l ≠ .reset → SameView t.db t'.db

/-- The recorded requests are finalized, and none of them is about to mark the session. -/
structure Settled (recorded : OrdMap String StoredStep) (s : State) : Prop where
  staged : Staged s.db
  works : Works s.db s.phase
  finalized : ∀ id, (recorded.get? id).isSome →
    ∃ stored, s.db.requests.get? id = some stored ∧ stored.response.finalized = true
  recover : ∀ a e, s.phase = .recover a e → recorded.get? a.requestId = none

/-- A transaction for a request that is finalized changes nothing. -/
theorem run_complete {phase phase' : Phase} {id : String} (hst : Staged db) (hw : Works db phase)
    (hid : phase.requestId? = some id) (hget : db.requests.get? id = some stored)
    (hf : stored.response.finalized = true) (hr : ¬ phase.recovers)
    (hrun : phase.run ctx db = .ok (phase', db')) : db' = db := by
  have complete {x : StepResponse} (hx : Recorded db x) (h : x.requestId = id) : Complete x := by
    obtain ⟨stored', b, hget', rfl⟩ := hx
    obtain rfl := Option.some.inj (hget.symm.trans (h ▸ hget'))
    have hc := hst.complete hget hf
    exact ⟨hc.decided, hc.executed, hc.finalized⟩
  cases phase with
  | idle | returned => cases hid
  | preflight request =>
    simp only [Phase.run, bind_eq_ok, pure_eq_ok, Prod.mk.injEq] at hrun
    obtain ⟨_, -, -, rfl⟩ := hrun
    rfl
  | advance request =>
    simp only [Phase.run, bind_eq_ok, pure_eq_ok, Prod.mk.injEq] at hrun
    obtain ⟨⟨x, db₁⟩, ha, -, rfl⟩ := hrun
    rcases advanceSession_cases ha with ⟨_, -, -, -, rfl⟩ | ⟨candles, ha', -, -⟩
    · rfl
    · have : db.requests.get? request.requestId = some stored := Option.some.inj hid ▸ hget
      rw [ha'.fresh] at this
      cases this
  | strategy x =>
    rw [Phase.run, (complete hw (Option.some.inj hid)).strategy] at hrun
    exact (Prod.mk.inj (Except.ok.inj hrun)).2.symm
  | execution a x =>
    rw [Phase.run, (complete hw.1 (Option.some.inj hid)).execution] at hrun
    exact (Prod.mk.inj (Except.ok.inj hrun)).2.symm
  | finalize a x =>
    rw [Phase.run, (complete hw.1 (Option.some.inj hid)).finalize] at hrun
    exact (Prod.mk.inj (Except.ok.inj hrun)).2.symm
  | recover => exact absurd rfl hr

/-- What is left to do for a finalized request does not raise. -/
theorem raised_complete {phase : Phase} {e : ReplayError} {a : StepResponse} (hst : Staged db)
    (hw : Works db phase) (hraises : Raises ctx phase db)
    (ha : phase.raised e = .recover a e) (hget : db.requests.get? a.requestId = some stored) :
    stored.response.finalized = false := by
  by_contra hf
  have hc := hst.complete hget (by simpa using hf)
  -- Were the answer finalized, it would be complete, and no transaction of its phase could
  -- raise.
  have complete {x : StepResponse} (hx : Recorded db x) (h : a.requestId = x.requestId) :
      Complete x := by
    obtain ⟨stored', b, hget', rfl⟩ := hx
    obtain rfl := Option.some.inj (hget.symm.trans (h ▸ hget'))
    exact ⟨hc.decided, hc.executed, hc.finalized⟩
  cases phase with
  | idle | preflight | advance | returned | recover => cases ha
  | strategy x =>
    obtain ⟨rfl, -⟩ := Phase.recover.inj ha
    have hx := complete hw rfl
    rcases hraises with hq | ⟨e, hrun⟩
    · exact hx.decided (Option.isNone_iff_eq_none.1 hq)
    · rw [Phase.run, hx.strategy] at hrun
      cases hrun
  | execution a' x =>
    obtain ⟨rfl, -⟩ := Phase.recover.inj ha
    have hx := complete hw.1 hw.2
    rcases hraises with hq | ⟨e, hrun⟩
    · exact hx.executed (Option.isNone_iff_eq_none.1 hq.1)
    · rw [Phase.run, hx.execution] at hrun
      cases hrun
  | finalize a' x =>
    obtain ⟨rfl, -⟩ := Phase.recover.inj ha
    have hx := complete hw.1 hw.2
    rcases hraises with hq | ⟨e, hrun⟩
    · exact absurd (hx.finalized.symm.trans hq.2) (by decide)
    · rw [Phase.run, hx.finalize] at hrun
      cases hrun

namespace Settled

variable {recorded : OrdMap String StoredStep} {s s' : State} {l : Label}

/-- Where a transaction raises, it is one of a request that is not recorded. -/
theorem raised (h : Settled recorded s) (hraises : Raises ctx s.phase s.db) {e e' : ReplayError}
    {a : StepResponse} (ha : s.phase.raised e = .recover a e') :
    recorded.get? a.requestId = none := by
  by_contra hne
  obtain ⟨stored, hget, hf⟩ := h.finalized _ (Option.isSome_iff_ne_none.2 hne)
  have he : e' = e := by
    rcases hp : s.phase <;> rw [hp] at ha <;> cases ha <;> rfl
  have := raised_complete h.staged h.works hraises (he ▸ ha) hget
  exact absurd (hf.symm.trans this) (by decide)

/-- A transaction keeps what is finalized. -/
theorem run {phase : Phase} (h : Settled recorded s) (hrun : s.phase.run ctx s.db = .ok (phase, db)) :
    (∀ id, (recorded.get? id).isSome →
      ∃ stored, db.requests.get? id = some stored ∧ stored.response.finalized = true) ∧
    ∀ a e, phase ≠ .recover a e := by
  obtain ⟨hwrites, -⟩ := run_writes h.staged h.works hrun
  refine ⟨fun id hid => ?_, fun a e hp => ?_⟩
  · obtain ⟨stored, hget, hf⟩ := h.finalized id hid
    exact ⟨stored, hwrites.finalized hget hf, hf⟩
  · subst hp
    -- no transaction ends with the session about to be marked
    cases hp : s.phase <;> rw [hp] at hrun <;>
      simp only [Phase.run, bind_eq_ok, pure_eq_ok, Prod.mk.injEq, Except.ok.injEq, reduceCtorEq,
        false_and, and_false, exists_false] at hrun

theorem step (h : Settled recorded s) (hs : Step ctx s l s') : Settled recorded s' := by
  obtain ⟨hst, hw⟩ := step_staged h.staged h.works hs
  cases hs with
  | receive | kill =>
    refine ⟨hst, hw, h.finalized, fun a e hp => ?_⟩
    cases hp
  | commit hrests hrun =>
    obtain ⟨hfinal, hne⟩ := h.run hrun
    exact ⟨hst, hw, hfinal, fun a e hp => absurd hp (hne a e)⟩
  | raise hrun => exact ⟨hst, hw, h.finalized, fun a e ha => h.raised (.inr ⟨_, hrun⟩) ha⟩
  | lost reason hq =>
    have hraises : Raises ctx s.phase s.db := .inl hq
    exact ⟨hst, hw, h.finalized, fun a e ha => h.raised hraises ha⟩
  | unacknowledged reason hq hrun =>
    have hraises : Raises ctx s.phase s.db := .inl hq
    exact ⟨hst, hw, (h.run hrun).1, fun a e ha => h.raised hraises ha⟩
  | reset hreset =>
    obtain ⟨-, rfl⟩ := resetSession_eq_ok hreset
    exact ⟨hst, hw, h.finalized, h.recover⟩
  | collect => exact ⟨hst, hw, h.finalized, h.recover⟩

theorem steps {ok : Condition} (h : Settled recorded s) (hr : Run ctx ok s s') :
    Settled recorded s' := by
  induction hr with
  | refl => exact h
  | step _ hs _ ih => exact ih.step hs

/-- No step for a recorded request changes what is seen. -/
theorem sameView (h : Settled recorded s) {id : String} (hid : s.phase.requestId? = some id)
    (hrecorded : (recorded.get? id).isSome) (hs : Step ctx s l s') (hl : l ≠ .reset) :
    SameView s.db s'.db := by
  obtain ⟨stored, hget, hf⟩ := h.finalized id hrecorded
  have unchanged {phase : Phase} {db : Db} (hrun : s.phase.run ctx s.db = .ok (phase, db)) :
      db = s.db := by
    refine run_complete h.staged h.works hid hget hf (fun hr => ?_) hrun
    cases hp : s.phase with
    | recover a e =>
      have hnone := h.recover a e hp
      rw [hp] at hid
      rw [Option.some.inj hid] at hnone
      rw [hnone] at hrecorded
      cases hrecorded
    | _ =>
      rw [hp] at hr
      cases hr
  cases hs with
  | reset => exact absurd rfl hl
  | commit _ hrun | unacknowledged _ _ hrun =>
    obtain rfl := unchanged hrun
    exact ⟨rfl, rfl, rfl, rfl, rfl, rfl⟩
  | _ => exact ⟨rfl, rfl, rfl, rfl, rfl, rfl⟩

end Settled

/-- After a clean reset, the requests of before change nothing. -/
theorem Clean.isolated {s : State} (hst : Staged s.db) (hw : Works s.db s.phase) (hc : Clean s)
    (hreset : resetSession s.db = .ok db') : Isolated ctx s.db.requests ⟨s.phase, db'⟩ := by
  have hs : Settled s.db.requests s := by
    refine ⟨hst, hw, fun id hid => ?_, fun a e hp => absurd (by rw [hp]; rfl) hc.2⟩
    obtain ⟨stored, hget⟩ := Option.isSome_iff_exists.1 hid
    exact ⟨stored, hget, hc.1.get? hget⟩
  have hstep : Step ctx s .reset ⟨s.phase, db'⟩ := .reset hreset
  have hs' : Settled s.db.requests ⟨s.phase, db'⟩ := hs.step hstep
  intro t hr id hid hrecorded l t' hstep hl
  exact (hs'.steps hr).sameView hid hrecorded hstep hl

/-! ## Sessions of the same kind -/

/-- The session under another name. -/
def Session.named (s : Session) (sessionId : String) : Session := { s with sessionId := sessionId }

/-- The response, of the session under another name. -/
def StepResponse.named (x : StepResponse) (sessionId : String) : StepResponse :=
  { x with session := x.session.named sessionId }

/-- The step, of the session under another name. -/
def StoredStep.named (stored : StoredStep) (sessionId : String) : StoredStep :=
  { stored with response := stored.response.named sessionId }

/-- A session is like another one, its name and the requests that were recorded before aside. -/
structure Alike (sessionId : String) (recorded : OrdMap String StoredStep) (db db₁ : Db) :
    Prop where
  session : db.session = db₁.session.named sessionId
  snapshot : db.snapshot = db₁.snapshot
  frozen : db.snapshot.rows ≠ []
  trades : db.trades = db₁.trades
  marks : db.marks = db₁.marks
  requests : ∀ id, recorded.get? id = none →
    db.requests.get? id = (db₁.requests.get? id).map (·.named sessionId)
  requestId : ∀ id stored, db₁.requests.get? id = some stored → stored.response.requestId = id

/-- The results of a stage in the two sessions. -/
structure AlikeStep (sessionId : String) (recorded : OrdMap String StoredStep)
    (p p₁ : StepResponse × Db) : Prop where
  response : p.1 = p₁.1.named sessionId
  fresh : recorded.get? p₁.1.requestId = none
  db : Alike sessionId recorded p.2 p₁.2

namespace Alike

variable {sessionId : String} {recorded : OrdMap String StoredStep} {db₁ : Db}
  {request : StepRequest} {x x₁ : StepResponse}

theorem ensuredSnapshot (h : Alike sessionId recorded db db₁) :
    db.ensuredSnapshot = db₁.snapshot ∧ db₁.ensuredSnapshot = db₁.snapshot :=
  ⟨(if_neg h.frozen).trans h.snapshot, if_neg (h.snapshot ▸ h.frozen)⟩

/-- What is stored in both sessions is alike. -/
theorem set (h : Alike sessionId recorded db db₁) {db' db₁' : Db} (id : String)
    (stored : StoredStep) (hid : stored.response.requestId = id)
    (hsession : db'.session = db₁'.session.named sessionId)
    (hsnapshot : db'.snapshot = db₁.snapshot) (hsnapshot₁ : db₁'.snapshot = db₁.snapshot)
    (htrades : db'.trades = db₁'.trades) (hmarks : db'.marks = db₁'.marks)
    (hrequests : db'.requests = db.requests.set id (stored.named sessionId))
    (hrequests₁ : db₁'.requests = db₁.requests.set id stored) :
    Alike sessionId recorded db' db₁' := by
  refine ⟨hsession, hsnapshot.trans hsnapshot₁.symm,
    (hsnapshot.trans h.snapshot.symm) ▸ h.frozen, htrades, hmarks,
    fun id' hid' => ?_, fun id' s hs => ?_⟩
  · rw [hrequests, hrequests₁, OrdMap.get?_set, OrdMap.get?_set]
    split
    · rfl
    · exact h.requests id' hid'
  · rw [hrequests₁, OrdMap.get?_set] at hs
    split at hs
    · obtain rfl := Option.some.inj hs
      exact hid.trans (Eq.symm ‹_›)
    · exact h.requestId id' s hs

theorem batch (h : Alike sessionId recorded db db₁) (steps : ℕ) :
    batch db steps = Replay.batch db₁ steps := by
  obtain ⟨hs, hs₁⟩ := h.ensuredSnapshot
  simp only [Replay.batch, hs, hs₁, h.session]
  rfl

theorem advanceSession (h : Alike sessionId recorded db db₁)
    (hid : recorded.get? request.requestId = none) :
    Agree (AlikeStep sessionId recorded) (advanceSession request db)
      (Replay.advanceSession request db₁) := by
  rw [Replay.advanceSession, Replay.advanceSession, h.requests _ hid, h.batch, h.session]
  rcases hget : db₁.requests.get? request.requestId with _ | stored
  · dsimp only [Option.map_none, Session.named]
    refine .ite (fun _ => rfl) fun _ => .ite (fun _ => rfl) fun _ => ?_
    refine .bind_self fun candles => ?_
    refine ⟨rfl, hid, h.set request.requestId ⟨request.params, _⟩ rfl rfl h.ensuredSnapshot.1
      h.ensuredSnapshot.2 h.trades ?_ rfl rfl⟩
    change marksOf (_ ++ _) = marksOf (_ ++ _)
    rw [marksOf_append, marksOf_append, marksOf_eq_nil (markTimes_stepEvents _),
      marksOf_eq_nil (markTimes_stepEvents _)]
    exact congrArg (· ++ []) h.marks
  · exact .ite (fun _ => ⟨rfl, by rw [h.requestId _ _ hget]; exact hid, h⟩) fun _ => rfl

theorem strategy (h : Alike sessionId recorded db db₁) (hx : x = x₁.named sessionId)
    (hid : recorded.get? x₁.requestId = none) :
    Agree (AlikeStep sessionId recorded) (Strategy.enrichStep ctx x db)
      (Strategy.enrichStep ctx x₁ db₁) := by
  subst hx
  refine .ite (fun _ => ⟨rfl, hid, h⟩) fun _ => ?_
  have hrequests : db.requests.get? (x₁.named sessionId).requestId =
      (db₁.requests.get? x₁.requestId).map (·.named sessionId) := h.requests _ hid
  rw [hrequests]
  rcases hget : db₁.requests.get? x₁.requestId with _ | stored
  · exact rfl
  refine .ite (fun _ => ⟨rfl, by rw [h.requestId _ _ hget]; exact hid, h⟩) fun _ => ?_
  rw [h.snapshot]
  refine .bind_self fun decisions => ?_
  refine ⟨rfl, hid, h.set x₁.requestId ⟨stored.request, x₁.strategized decisions⟩ rfl h.session
    rfl rfl h.trades ?_
    rfl rfl⟩
  change marksOf (_ ++ _) = marksOf (_ ++ _)
  rw [marksOf_append, marksOf_append]
  exact congrArg (· ++ _) h.marks

theorem executeStored (h : Alike sessionId recorded db db₁) {id : String} {stored : StoredStep}
    (hrequest : stored.response.requestId = id) (hid : recorded.get? id = none)
    (decisions : List Decision) :
    Agree (AlikeStep sessionId recorded)
      (Simulation.executeStored ctx id (stored.named sessionId) decisions db)
      (Simulation.executeStored ctx id stored decisions db₁) := by
  rw [Simulation.executeStored, Simulation.executeStored, h.session, h.trades]
  refine .bind_self fun config => .bind_self fun _ => ?_
  -- the two plans differ in the name of the session only
  refine .bind_self fun sim => .bind_self fun totals => .bind_self fun execution => ?_
  refine ⟨rfl, hrequest ▸ hid, h.set id ⟨stored.request, _⟩ ?_ rfl h.snapshot rfl rfl ?_ rfl rfl⟩
  · exact hrequest
  · change marksOf (_ ++ _) = marksOf (_ ++ _)
    rw [marksOf_append, marksOf_append, marksOf_append, marksOf_append]
    exact congrArg (· ++ _ ++ _) h.marks

theorem execution (h : Alike sessionId recorded db db₁) (hx : x = x₁.named sessionId)
    (hid : recorded.get? x₁.requestId = none) :
    Agree (AlikeStep sessionId recorded) (Simulation.enrichStep ctx x db)
      (Simulation.enrichStep ctx x₁ db₁) := by
  subst hx
  refine .ite (fun _ => ⟨rfl, hid, h⟩) fun _ => .ite (fun _ => rfl) fun _ => ?_
  have hrequests : db.requests.get? (x₁.named sessionId).requestId =
      (db₁.requests.get? x₁.requestId).map (·.named sessionId) := h.requests _ hid
  rw [hrequests]
  rcases hget : db₁.requests.get? x₁.requestId with _ | stored
  · exact rfl
  have hrequest := h.requestId _ _ hget
  refine .ite (fun _ => ⟨rfl, by rw [hrequest]; exact hid, h⟩) fun _ => ?_
  have hstrategy : (stored.response.named sessionId).strategy = stored.response.strategy := rfl
  rcases hs : stored.response.strategy with _ | strategy <;> dsimp only [StoredStep.named] <;>
    rw [hstrategy, hs]
  · exact rfl
  · exact h.executeStored hrequest hid strategy.decisions

theorem finalize (h : Alike sessionId recorded db db₁) (hx : x = x₁.named sessionId)
    (hid : recorded.get? x₁.requestId = none) :
    Agree (AlikeStep sessionId recorded) (finalizeExecutionResponse x db)
      (finalizeExecutionResponse x₁ db₁) := by
  subst hx
  have hexecution : (x₁.named sessionId).execution = x₁.execution := rfl
  rw [finalizeExecutionResponse, finalizeExecutionResponse, hexecution]
  rcases x₁.execution with _ | execution
  · exact ⟨rfl, hid, h⟩
  refine .ite (fun _ => ⟨rfl, hid, h⟩) fun _ => ?_
  have hrequests : db.requests.get? (x₁.named sessionId).requestId =
      (db₁.requests.get? x₁.requestId).map (·.named sessionId) := h.requests _ hid
  rw [hrequests, h.session]
  rcases hget : db₁.requests.get? x₁.requestId with _ | stored
  · exact rfl
  · exact ⟨rfl, hid, h.set x₁.requestId ⟨stored.request, finalizedResponse x₁ execution⟩ rfl rfl
      h.snapshot rfl h.trades h.marks rfl rfl⟩

/-- A step in the two sessions. -/
theorem stepOnce (h : Alike sessionId recorded db db₁)
    (hid : recorded.get? request.requestId = none) :
    Agree (AlikeStep sessionId recorded) (stepOnce ctx request db)
      (Engine.stepOnce ctx request db₁) := by
  have hpreflight : validateExecutionPreflight db = validateExecutionPreflight db₁ := by
    rw [validateExecutionPreflight, validateExecutionPreflight, h.session]
    rfl
  rw [Engine.stepOnce, Engine.stepOnce, hpreflight]
  refine .bind_self fun _ => (h.advanceSession hid).bind fun a a₁ ha => ?_
  refine (ha.db.strategy ha.response ha.fresh).bind fun x x₁ hx => ?_
  refine (hx.db.execution hx.response hx.fresh).bind fun y y₁ hy => ?_
  refine hy.db.finalize ?_ (by rw [markIdempotent_requestId]; exact hy.fresh)
  rw [hy.response, ha.response, markIdempotent, markIdempotent]
  change ite (a₁.1.idempotent = true) _ _ = _
  split <;> rfl

end Alike

/-- The steps in the two sessions. -/
theorem Alike.stepAll {sessionId : String} {recorded : OrdMap String StoredStep} {db₁ : Db}
    (h : Alike sessionId recorded db db₁) {requests : List StepRequest}
    (hfresh : ∀ request ∈ requests, recorded.get? request.requestId = none) :
    Agree (Alike sessionId recorded) (stepAll ctx requests db) (stepAll ctx requests db₁) := by
  refine Agree.foldlM h fun request hmem db db₁ h => ?_
  exact (h.stepOnce (hfresh request hmem)).map fun _ _ hp => hp.db

/-- The sessions have the same configuration and the same frozen candles. -/
structure SameKind (db db₁ : Db) : Prop where
  symbol : db.session.symbol = db₁.session.symbol
  timeframe : db.session.timeframe = db₁.session.timeframe
  startTime : db.session.startTime = db₁.session.startTime
  endTime : db.session.endTime = db₁.session.endTime
  initialBalance : db.session.initialBalance = db₁.session.initialBalance
  strategyMode : db.session.strategyMode = db₁.session.strategyMode
  config : db.session.config = db₁.session.config
  snapshot : db.snapshot = db₁.snapshot
  frozen : db.snapshot.rows ≠ []

/-- What is simulated in the sessions is the same. -/
structure SameResults (db db₁ : Db) : Prop where
  trades : db.trades = db₁.trades
  marks : db.marks = db₁.marks
  balance : db.session.balance = db₁.session.balance
  equity : db.session.equity = db₁.session.equity

/-- The requests of before the reset change nothing, and the session steps as a new one does. -/
def StartsOver (ctx : Decimal.Context) (s : State) (db' : Db) : Prop :=
  Isolated ctx s.db.requests ⟨s.phase, db'⟩ ∧
    ∀ db₁ n₁, Fresh db₁ n₁ → SameKind db' db₁ → ∀ requests : List StepRequest,
      (∀ request ∈ requests, s.db.requests.get? request.requestId = none) →
        Agree SameResults (stepAll ctx requests db') (stepAll ctx requests db₁)

/-- A session that is reset is like a new one. -/
theorem alike_of_reset {db₁ : Db} (hreset : resetSession db = .ok db') (hdb₁ : Fresh db₁ n)
    (hkind : SameKind db' db₁) : Alike db'.session.sessionId db.requests db' db₁ := by
  obtain ⟨-, rfl⟩ := resetSession_eq_ok hreset
  have hget : ∀ {id stored}, db₁.requests.get? id ≠ some stored := by simp [hdb₁.requests]
  obtain ⟨count, hevents⟩ := hdb₁.events
  refine ⟨?_, hkind.snapshot, hkind.frozen, hdb₁.trades.symm, ?_, fun id hid => ?_,
    fun _ _ hs => absurd hs hget⟩
  · obtain ⟨hsymbol, htimeframe, hstart, hend, hinitial, hmode, hconfig, -, -⟩ := hkind
    obtain ⟨-, hstatus, hcursor, hbalance, hequity, hsummary, -, -, -⟩ := hdb₁
    rcases db₁ with ⟨⟨_, _, _, _, _, _, _, _, _, _, _, _, _⟩, _, _, _, _, _⟩
    dsimp only at *
    subst_vars
    rfl
  · rw [Db.marks, Db.marks, hevents]
    rfl
  · rw [Option.eq_none_iff_forall_not_mem.2 fun _ hs => hget (Option.mem_def.1 hs)]
    exact hid

/-- Where all requests are finalized, a reset takes the session back to its start for good. -/
theorem reset_startsOver (hdb : Fresh db n) {s : State}
    (hr : Run ctx (fun _ _ _ => True) ⟨.idle, db⟩ s) (hc : Clean s)
    (hreset : resetSession s.db = .ok db') : StartsOver ctx s db' := by
  obtain ⟨hst, hw⟩ := run_staged (s := ⟨.idle, db⟩) hdb.staged trivial hr
  refine ⟨hc.isolated hst hw hreset, fun db₁ n₁ hdb₁ hkind requests hfresh => ?_⟩
  refine ((alike_of_reset hreset hdb₁ hkind).stepAll hfresh).mono fun db db₁ h => ?_
  exact ⟨h.trades, h.marks, by rw [h.session]; rfl, by rw [h.session]; rfl⟩

/-- A session that is reset after its first request is finalized. -/
theorem reset_startsOver_flat : ∃ db s db', flatStart = .ok db ∧
    Run .default (fun _ _ _ => True) ⟨.idle, db⟩ s ∧ Clean s ∧
    (s.db.requests.get? "a").isSome ∧ resetSession s.db = .ok db' ∧ StartsOver .default s db' := by
  have h : (flatStart.toOption.bind fun db => playAll .default (fun _ _ => true) ⟨.idle, db⟩ [
      .receive flatFirst, .commit, .commit, .commit, .commit, .commit]).any fun s =>
        Clean s ∧ (s.db.requests.get? "a").isSome ∧ (resetSession s.db).toOption.isSome := by
    decide +kernel
  obtain ⟨db, s, hdb, hrun, hs⟩ := Run.exists_of_start h
  obtain ⟨n, hfresh⟩ := startSession_fresh hdb
  obtain ⟨hc, hget, hsome⟩ := of_decide_eq_true hs
  have hrun : Run .default (fun _ _ _ => True) ⟨.idle, db⟩ s := hrun.mono fun _ _ _ _ => trivial
  rcases hreset : resetSession s.db with e | db'
  · rw [hreset] at hsome
    cases hsome
  · exact ⟨db, s, db', hdb, hrun, hc, hget, hreset, reset_startsOver hfresh hrun hc hreset⟩

/-- When the process is killed before it finalizes the first response, a retry after the reset
    finalizes it, and the session is paused. -/
theorem not_startsOver_killed : ¬ ∀ db n, Fresh db n → ∀ s db',
    Run .default (fun _ _ _ => True) ⟨.idle, db⟩ s → resetSession s.db = .ok db' →
    StartsOver .default s db' := by
  intro hall
  -- Killed before the last transaction, reset, and sent again: the old answer is finished
  -- instead.
  have h : (flatStart.toOption.bind fun db => playAll .default (fun _ _ => true) ⟨.idle, db⟩ [
      .receive flatFirst, .commit, .commit, .commit, .commit, .kill]).any fun s =>
        (s.db.requests.get? "a").isSome ∧ (resetSession s.db).toOption.any fun db' =>
          (playAll .default (fun _ _ => true) ⟨s.phase, db'⟩ [
            .receive flatFirst, .commit, .commit, .commit, .commit]).any fun t =>
              t.phase.requestId? = some "a" ∧ (play .default t .commit).any fun t' =>
                t'.db.session.status ≠ t.db.session.status := by decide +kernel
  obtain ⟨db, s, hdb, hrun, hs⟩ := Run.exists_of_start h
  obtain ⟨n, hfresh⟩ := startSession_fresh hdb
  simp only [Option.any_eq_true, decide_eq_true_eq] at hs
  obtain ⟨hget, db', hreset, t, ht, hid, t', ht', hstatus⟩ := hs
  have hreset : resetSession s.db = .ok db' := by
    rcases hr : resetSession s.db with e | db₁
    · rw [hr] at hreset
      cases hreset
    · rw [hr] at hreset
      rw [Option.some.inj hreset]
  have hstarts := hall db n hfresh s db' (hrun.mono fun _ _ _ _ => trivial) hreset
  have hview := hstarts.1 t ((Run.of_playAll ht).mono fun _ _ _ _ => trivial) "a" hid hget
    .commit t' (Step.of_play ht') (by decide)
  exact hstatus hview.status

end IntradayBot.Replay
