import IntradayBot.Replay.ExactlyOnce

/-!
# Requests that are sent again

A request whose response is finalized changes nothing when it is sent again: every transaction
finds its work done (`Repeats`).

The session may advance past a request that is not finalized, if the process was killed before
that, and then the request is not harmless: it executes its candles late, or takes the status
and the summary of the session back to what they were. Runs whose sessions advance only once
all requests are finalized (`Finishes`) do not get there: what is not finalized is at the
cursor (`Current`).
-/

namespace IntradayBot.Replay

open Engine Simulation

variable {ctx : Decimal.Context} {db db' : Db} {n : ℕ} {request : StepRequest}
  {x y : StepResponse} {stored : StoredStep}

/-! ## Repeated requests -/

/-- The responses to all requests are finalized. -/
def AllFinalized (db : Db) : Prop := ∀ stored ∈ db.requests.values, stored.response.finalized = true

instance : DecidablePred AllFinalized := fun db =>
  inferInstanceAs (Decidable (∀ stored ∈ db.requests.values, _))

theorem AllFinalized.get? (h : AllFinalized db) {id : String}
    (hget : db.requests.get? id = some stored) : stored.response.finalized = true :=
  h stored (OrdMap.mem_values.2 ⟨id, hget⟩)

/-- A request is sent, again and again, whatever fails. -/
def Resends (request : StepRequest) (_ : State) (l : Label) (s' : State) : Prop :=
  l ≠ .reset ∧ (l = .receive → s'.phase = .preflight request)

/-- What is left to do for a request, of which `x` is the response. -/
def Repeats (request : StepRequest) (x : StepResponse) : Phase → Prop
  | .idle | .returned (.error _) => True
  | .preflight r | .advance r => r = request
  | .strategy y | .returned (.ok y) => y = x
  | .execution a y | .finalize a y => a = x ∧ y = x
  | .recover .. => False

/-- The response that is found again. -/
def StoredStep.again (stored : StoredStep) : StepResponse :=
  { stored.response with idempotent := true }

/-- The response is complete. -/
structure Complete (x : StepResponse) : Prop where
  decided : x.strategy ≠ none
  executed : x.execution ≠ none
  finalized : x.finalized = true

namespace Complete

/-! Every stage finds its work done. -/

theorem strategy (hx : Complete x) : Strategy.enrichStep ctx x db = .ok (x, db) := by
  rw [Strategy.enrichStep, if_pos (Option.isSome_iff_ne_none.2 hx.decided)]
  rfl

theorem execution (hx : Complete x) : Simulation.enrichStep ctx x db = .ok (x, db) := by
  rw [Simulation.enrichStep, if_pos (Option.isSome_iff_ne_none.2 hx.executed)]
  rfl

theorem finalize (hx : Complete x) : finalizeExecutionResponse x db = .ok (x, db) := by
  obtain ⟨execution, hexecution⟩ := Option.ne_none_iff_exists'.1 hx.executed
  rw [finalizeExecutionResponse, hexecution]
  exact if_pos hx.finalized

theorem again (h : Complete stored.response) : Complete stored.again :=
  ⟨h.decided, h.executed, h.finalized⟩

end Complete

/-- The transactions of a repeated request change nothing. -/
theorem run_repeats {phase phase' : Phase} (hget : db.requests.get? request.requestId = some stored)
    (hparams : stored.request = request.params) (hc : Complete stored.response)
    (h : Repeats request stored.again phase) (hrun : phase.run ctx db = .ok (phase', db')) :
    Repeats request stored.again phase' ∧ db' = db := by
  -- Every transaction finds the answer complete and returns it as it is.
  cases phase with
  | idle | returned =>
    obtain ⟨rfl, rfl⟩ := Prod.mk.inj (Except.ok.inj hrun)
    exact ⟨h, rfl⟩
  | preflight r =>
    simp only [Phase.run, bind_eq_ok, pure_eq_ok, Prod.mk.injEq] at hrun
    obtain ⟨_, -, rfl, rfl⟩ := hrun
    exact ⟨h, rfl⟩
  | advance r =>
    obtain rfl : r = request := h
    simp only [Phase.run, advanceSession, hget, hparams, if_true] at hrun
    obtain ⟨rfl, rfl⟩ := Prod.mk.inj (Except.ok.inj hrun)
    exact ⟨rfl, rfl⟩
  | strategy y =>
    obtain rfl : y = stored.again := h
    rw [Phase.run, hc.again.strategy] at hrun
    obtain ⟨rfl, rfl⟩ := Prod.mk.inj (Except.ok.inj hrun)
    exact ⟨⟨rfl, rfl⟩, rfl⟩
  | execution a y =>
    obtain ⟨rfl, rfl⟩ : a = stored.again ∧ y = stored.again := h
    rw [Phase.run, hc.again.execution] at hrun
    obtain ⟨rfl, rfl⟩ := Prod.mk.inj (Except.ok.inj hrun)
    exact ⟨⟨rfl, rfl⟩, rfl⟩
  | finalize a y =>
    obtain ⟨rfl, rfl⟩ : a = stored.again ∧ y = stored.again := h
    rw [Phase.run, hc.again.finalize] at hrun
    obtain ⟨rfl, rfl⟩ := Prod.mk.inj (Except.ok.inj hrun)
    exact ⟨rfl, rfl⟩
  | recover => exact h.elim

/-- The transaction of a phase may raise. -/
def Raises (ctx : Decimal.Context) (phase : Phase) (db : Db) : Prop :=
  phase.Queries ∨ ∃ e, phase.run ctx db = .error e

/-- Nothing raises in a repeated request once it is found. -/
theorem raised_repeats {phase : Phase} {e : ReplayError} (hc : Complete stored.response)
    (h : Repeats request stored.again phase) (hraises : Raises ctx phase db) :
    Repeats request stored.again (phase.raised e) := by
  cases phase with
  | idle | preflight | advance | returned => trivial
  | recover => exact h.elim
  | strategy y =>
    obtain rfl : y = stored.again := h
    rcases hraises with hq | ⟨e, hrun⟩
    · exact absurd (Option.isNone_iff_eq_none.1 hq) hc.decided
    · rw [Phase.run, hc.again.strategy] at hrun
      cases hrun
  | execution a y =>
    obtain ⟨rfl, rfl⟩ : a = stored.again ∧ y = stored.again := h
    rcases hraises with hq | ⟨e, hrun⟩
    · exact absurd (Option.isNone_iff_eq_none.1 hq.1) hc.executed
    · rw [Phase.run, hc.again.execution] at hrun
      cases hrun
  | finalize a y =>
    obtain ⟨rfl, rfl⟩ : a = stored.again ∧ y = stored.again := h
    rcases hraises with hq | ⟨e, hrun⟩
    · exact absurd (hc.finalized.symm.trans hq.2) (by decide)
    · rw [Phase.run, hc.again.finalize] at hrun
      cases hrun

/-- A request that is complete changes nothing, however often it is sent. -/
theorem run_resends {s : State} (hget : db.requests.get? request.requestId = some stored)
    (hparams : stored.request = request.params) (hc : Complete stored.response)
    (hr : Run ctx (Resends request) ⟨.idle, db⟩ s) :
    Repeats request stored.again s.phase ∧ s.db = { db with source := s.db.source } := by
  induction hr with
  | refl => exact ⟨trivial, rfl⟩
  | @step s _ _ hr hs hok ih =>
    obtain ⟨hphase, hdb⟩ := ih
    -- the collector aside, the request is stored as it was
    have hget' := (congrArg (·.requests.get? request.requestId) hdb).trans hget
    cases hs with
    | receive r hrests => exact ⟨Phase.preflight.inj (hok.2 rfl), hdb⟩
    | commit hrests hrun =>
      obtain ⟨hphase', rfl⟩ := run_repeats hget' hparams hc hphase hrun
      exact ⟨hphase', hdb⟩
    | raise hrun => exact ⟨raised_repeats hc hphase (.inr ⟨_, hrun⟩), hdb⟩
    | lost reason hq =>
      have hraises : Raises ctx s.phase s.db := .inl hq
      exact ⟨raised_repeats hc hphase hraises, hdb⟩
    | unacknowledged reason hq hrun =>
      have hraises : Raises ctx s.phase s.db := .inl hq
      obtain ⟨-, rfl⟩ := run_repeats hget' hparams hc hphase hrun
      exact ⟨raised_repeats hc hphase hraises, hdb⟩
    | kill => exact ⟨trivial, hdb⟩
    | reset => exact absurd rfl hok.1
    | collect => exact ⟨hphase, by rw [hdb]⟩

/-! ## Stages -/

/-- What a stage does to a response that is not finalized. -/
structure Enriches (x y : StepResponse) : Prop where
  requestId : y.requestId = x.requestId
  cursorTime : y.cursorTime = x.cursorTime
  open_ : x.finalized = false
  decided : y.strategy ≠ none
  executed : y.finalized = true → y.execution ≠ none

/-- Only the account of the session changes, its trades and its events. -/
structure SameCandles (db db' : Db) : Prop where
  session : db'.session = { db.session with
    status := db'.session.status
    balance := db'.session.balance
    equity := db'.session.equity
    summary := db'.session.summary }
  snapshot : db'.snapshot = db.snapshot
  source : db'.source = db.source

theorem SameCandles.cursorTime (h : SameCandles db db') :
    db'.session.cursorTime = db.session.cursorTime := by rw [h.session]

/-- What a transaction writes to the requests. -/
inductive Writes (phase : Phase) (db db' : Db) : Prop
  | none : db'.requests = db.requests → SameCandles db db' → Writes phase db db'
  | advance (request : StepRequest) (candles : {l : List Candle // l ≠ []}) :
      phase.advances db → Advances request db candles → db' = db.advance request candles →
      Writes phase db db'
  | respond (stored : StoredStep) (y : StepResponse) :
      db.requests.get? y.requestId = some stored → Enriches stored.response y →
      db'.requests = (db.respond stored y).requests → SameCandles db db' → Writes phase db db'

/-- Responses are enriched stage by stage. -/
structure Staged (db : Db) : Prop where
  named : ∀ id stored, db.requests.get? id = some stored → stored.response.requestId = id
  decided : ∀ id stored, db.requests.get? id = some stored →
    stored.response.execution ≠ none → stored.response.strategy ≠ none
  executed : ∀ id stored, db.requests.get? id = some stored →
    stored.response.finalized = true → stored.response.execution ≠ none

theorem Staged.complete (h : Staged db) {id : String} (hget : db.requests.get? id = some stored)
    (hf : stored.response.finalized = true) : Complete stored.response :=
  ⟨h.decided _ _ hget (h.executed _ _ hget hf), h.executed _ _ hget hf, hf⟩

/-- The response that a phase works on is the one that is stored. -/
def Works (db : Db) : Phase → Prop
  | .strategy x => Recorded db x
  | .execution a x | .finalize a x => Recorded db x ∧ a.requestId = x.requestId
  | _ => True

theorem Recorded.congr (h : Recorded db x) (hr : db'.requests = db.requests) : Recorded db' x := by
  obtain ⟨stored, b, hget, hx⟩ := h
  exact ⟨stored, b, by rw [hr]; exact hget, hx⟩

theorem Works.congr {phase : Phase} (h : Works db phase) (hr : db'.requests = db.requests) :
    Works db' phase := by
  cases phase with
  | strategy => exact Recorded.congr h hr
  | execution | finalize => exact ⟨h.1.congr hr, h.2⟩
  | _ => trivial

/-- A phase that has raised works on nothing. -/
theorem Works.raised {phase : Phase} {e : ReplayError} (h : Works db phase) :
    Works db' (phase.raised e) := by
  cases phase <;> trivial

theorem markIdempotent_requestId (a x : StepResponse) :
    (markIdempotent a x).requestId = x.requestId := by
  rw [markIdempotent]
  split <;> rfl

/-- Every transaction writes, at most, the response that it works on. -/
theorem run_writes {phase phase' : Phase} (h : Staged db) (hw : Works db phase)
    (hrun : phase.run ctx db = .ok (phase', db')) : Writes phase db db' ∧ Works db' phase' := by
  cases phase with
  | idle | returned =>
    obtain ⟨rfl, rfl⟩ := Prod.mk.inj (Except.ok.inj hrun)
    exact ⟨.none rfl ⟨rfl, rfl, rfl⟩, trivial⟩
  | preflight request =>
    simp only [Phase.run, bind_eq_ok, pure_eq_ok, Prod.mk.injEq] at hrun
    obtain ⟨_, -, rfl, rfl⟩ := hrun
    exact ⟨.none rfl ⟨rfl, rfl, rfl⟩, trivial⟩
  | advance request =>
    simp only [Phase.run, bind_eq_ok, pure_eq_ok, Prod.mk.injEq] at hrun
    obtain ⟨⟨x, db₁⟩, ha, rfl, rfl⟩ := hrun
    rcases advanceSession_cases ha with ⟨stored, hget, -, rfl, rfl⟩ | ⟨candles, ha', rfl, rfl⟩
    · exact ⟨.none rfl ⟨rfl, rfl, rfl⟩, stored, true, by rw [h.named _ _ hget]; exact hget, rfl⟩
    · exact ⟨.advance request candles (by simp [Phase.advances, ha'.fresh]) ha' rfl,
        .advance request db candles⟩
  | strategy a =>
    simp only [Phase.run, bind_eq_ok, pure_eq_ok, Prod.mk.injEq] at hrun
    obtain ⟨⟨y, db₁⟩, hs, rfl, rfl⟩ := hrun
    rcases Recorded.strategy_cases hw hs with ⟨-, rfl, rfl⟩ |
      ⟨stored, decisions, hnone, hget, -, hy, rfl⟩
    · exact ⟨.none rfl ⟨rfl, rfl, rfl⟩, hw, rfl⟩
    have hstored := Recorded.requestId hw hget
    -- nothing is decided, and so nothing is finalized
    have hopen : stored.response.finalized = false := by
      by_contra hf
      exact (h.complete hget (by simpa using hf)).decided (by rw [hstored]; exact hnone)
    refine ⟨.respond stored y (hy ▸ hget) ⟨?_, ?_, hopen, ?_, ?_⟩ rfl ⟨rfl, rfl, rfl⟩,
      .respond db stored y, ?_⟩ <;> rw [hy]
    · rw [hstored]
      rfl
    · rw [hstored]
      rfl
    · exact Option.some_ne_none _
    · rw [hstored] at hopen
      exact fun hf => absurd (hf.symm.trans hopen) (by decide)
    · rfl
  | execution a x =>
    simp only [Phase.run, bind_eq_ok, pure_eq_ok, Prod.mk.injEq] at hrun
    obtain ⟨⟨y, db₁⟩, hs, rfl, rfl⟩ := hrun
    rcases Recorded.execution_cases hw.1 hs with ⟨-, rfl, rfl⟩ |
      ⟨stored, strategy, plan, sim, totals, execution, hnone, hstrategy, hget, hexecutes, hy, rfl⟩
    · exact ⟨.none rfl ⟨rfl, rfl, rfl⟩, hw.1.markIdempotent,
      hw.2.trans (markIdempotent_requestId _ _).symm⟩
    have hstored := Recorded.requestId hw.1 hget
    have hopen : stored.response.finalized = false := by
      by_contra hf
      exact h.executed _ _ hget (by simpa using hf) (by rw [hstored]; exact hnone)
    obtain ⟨config, -, hplan⟩ := hexecutes.plan_eq
    refine ⟨.respond stored y (hy ▸ hget) ⟨?_, ?_, hopen, ?_, ?_⟩ rfl ⟨?_, rfl, rfl⟩,
      (Recorded.respond db stored y).markIdempotent, ?_⟩
    · rw [hy, hstored]
    · rw [hy, hstored]
    · rw [hy]
      exact hstrategy ▸ Option.some_ne_none _
    · rw [hy]
      exact fun _ => Option.some_ne_none _
    · rw [hy]
      simp only [settle, hplan, Simulation.plan]
    · rw [markIdempotent_requestId, hw.2, hy]
  | finalize a x =>
    simp only [Phase.run, bind_eq_ok, pure_eq_ok, Prod.mk.injEq] at hrun
    obtain ⟨⟨y, db₁⟩, hs, rfl, rfl⟩ := hrun
    rcases Recorded.finalize_cases hw.1 hs with ⟨-, rfl, rfl⟩ |
      ⟨stored, execution, hsome, hopen, hget, hy, rfl⟩
    · exact ⟨.none rfl ⟨rfl, rfl, rfl⟩, trivial⟩
    have hstored := Recorded.requestId hw.1 hget
    have hdecided := h.decided _ _ hget
    rw [hstored] at hdecided
    refine ⟨.respond stored y (hy ▸ hget) ⟨?_, ?_, ?_, ?_, ?_⟩ rfl ⟨rfl, rfl, rfl⟩, trivial⟩
    · rw [hy, hstored]
      rfl
    · rw [hy, hstored]
      rfl
    · rw [hstored]
      exact hopen
    · rw [hy]
      exact hdecided (hsome ▸ Option.some_ne_none _)
    · rw [hy]
      exact fun _ => Option.some_ne_none _
  | recover a e =>
    obtain ⟨rfl, rfl⟩ := Prod.mk.inj (Except.ok.inj hrun)
    exact ⟨.none rfl ⟨rfl, rfl, rfl⟩, trivial⟩

namespace Writes

variable {phase : Phase}

/-- What is recorded under a name is what was, or the response that was written. -/
theorem get?_cases (h : Writes phase db db') {id : String}
    (hget : db'.requests.get? id = some stored) :
    db.requests.get? id = some stored ∨
    (∃ request candles, phase.advances db ∧ id = request.requestId ∧
      stored.response = advanced request db.session candles ∧
      db'.session.cursorTime = some stored.response.cursorTime) ∨
    ∃ stored', db.requests.get? id = some stored' ∧ Enriches stored'.response stored.response ∧
      stored.response.requestId = id := by
  -- A stored answer is the old one, a new one of the advance, or the old one enriched.
  cases h with
  | none hr => exact .inl (by rw [← hr]; exact hget)
  | advance request candles hp ha hdb =>
    subst hdb
    have hget' := hget
    rw [Db.advance, OrdMap.get?_set] at hget'
    split at hget'
    · obtain rfl := Option.some.inj hget'
      exact .inr (.inl ⟨request, candles, hp, ‹_›, rfl, rfl⟩)
    · exact .inl hget'
  | respond stored' y hget' hy hr =>
    rw [hr, Db.respond, OrdMap.get?_set] at hget
    split at hget
    · obtain rfl := Option.some.inj hget
      rename_i hid
      exact .inr (.inr ⟨stored', hid ▸ hget', hy, hid.symm⟩)
    · exact .inl hget

/-- A response that is finalized is not written again. -/
theorem finalized (h : Writes phase db db') {id : String}
    (hget : db.requests.get? id = some stored) (hf : stored.response.finalized = true) :
    db'.requests.get? id = some stored := by
  cases h with
  | none hr => rw [hr]; exact hget
  | advance request candles _ ha hdb =>
    rw [hdb, Db.advance, OrdMap.get?_set, if_neg fun hid => ?_]
    · exact hget
    · rw [hid, ha.fresh] at hget
      cases hget
  | respond stored' y hget' hy hr =>
    rw [hr, Db.respond, OrdMap.get?_set, if_neg fun hid => ?_]
    · exact hget
    · rw [hid] at hget
      obtain rfl := Option.some.inj (hget.symm.trans hget')
      exact absurd (hf.symm.trans hy.open_) (by decide)

theorem staged (h : Writes phase db db') (hst : Staged db) : Staged db' := by
  refine ⟨fun id stored hget => ?_, fun id stored hget => ?_, fun id stored hget => ?_⟩ <;>
    rcases h.get?_cases hget with hget' | ⟨request, candles, -, hid, hx, -⟩ |
      ⟨stored', hget', hy, hid⟩
  · exact hst.named _ _ hget'
  · rw [hx, hid]
    rfl
  · exact hid
  · exact hst.decided _ _ hget'
  · rw [hx]
    exact fun he => absurd rfl he
  · exact fun _ => hy.decided
  · exact hst.executed _ _ hget'
  · rw [hx]
    exact nofun
  · exact hy.executed

end Writes

theorem resetSession_eq_ok (h : resetSession db = .ok db') :
    db.session.status ≠ .running ∧ db' = { db with
      trades := []
      events := [.sessionReset]
      session := { db.session with
        status := .ready
        cursorTime := none
        balance := db.session.initialBalance
        equity := db.session.initialBalance
        summary := .empty } } := by
  rw [resetSession] at h
  split at h
  · cases h
  · exact ⟨‹_›, (Except.ok.inj h).symm⟩

theorem Staged.congr (h : Staged db) (hr : db'.requests = db.requests) : Staged db' :=
  ⟨by rw [hr]; exact h.named, by rw [hr]; exact h.decided, by rw [hr]; exact h.executed⟩

/-- Every step keeps the stages of the responses. -/
theorem step_staged {s s' : State} {l : Label} (h : Staged s.db) (hw : Works s.db s.phase)
    (hs : Step ctx s l s') : Staged s'.db ∧ Works s'.db s'.phase := by
  cases hs with
  | receive | kill => exact ⟨h, trivial⟩
  | commit hrests hrun =>
    obtain ⟨hwrites, hw'⟩ := run_writes h hw hrun
    exact ⟨hwrites.staged h, hw'⟩
  | raise | lost => exact ⟨h, hw.raised⟩
  | unacknowledged reason hq hrun => exact ⟨(run_writes h hw hrun).1.staged h, hw.raised⟩
  | reset hreset =>
    obtain ⟨-, rfl⟩ := resetSession_eq_ok hreset
    exact ⟨h.congr rfl, hw.congr rfl⟩
  | collect => exact ⟨h.congr rfl, hw.congr rfl⟩

/-- Every run does. -/
theorem run_staged {ok : Condition} {s s' : State} (h : Staged s.db) (hw : Works s.db s.phase)
    (hr : Run ctx ok s s') : Staged s'.db ∧ Works s'.db s'.phase := by
  induction hr with
  | refl => exact ⟨h, hw⟩
  | step _ hs _ ih => exact step_staged ih.1 ih.2 hs

theorem Fresh.staged (h : Fresh db n) : Staged db := by
  have hget : ∀ {id stored}, db.requests.get? id ≠ some stored := by simp [h.requests]
  exact ⟨fun _ _ hs => absurd hs hget, fun _ _ hs => absurd hs hget, fun _ _ hs => absurd hs hget⟩

/-! ## What is not finalized -/

/-- The session advances only once all requests are finalized. -/
def Finishes (s : State) : Label → Prop
  | .commit | .unacknowledged => s.phase.advances s.db → AllFinalized s.db
  | _ => True

instance (s : State) : DecidablePred (Finishes s)
  | .commit | .unacknowledged => inferInstanceAs (Decidable (_ → AllFinalized s.db))
  | .receive | .raise | .lost | .kill | .reset | .collect => .isTrue trivial

/-- What is not finalized is at the cursor. -/
def Current (db : Db) : Prop :=
  ∀ id stored, db.requests.get? id = some stored → stored.response.finalized = false →
    ∀ cursor ∈ db.session.cursorTime, cursor = stored.response.cursorTime

theorem Writes.current {phase : Phase} (h : Writes phase db db') (hc : Current db)
    (hf : phase.advances db → AllFinalized db) : Current db' := by
  intro id stored hget hopen cursor hcursor
  cases h with
  | none hr hsession =>
    rw [hr] at hget
    rw [hsession.cursorTime] at hcursor
    exact hc id stored hget hopen cursor hcursor
  | advance request candles hp ha hdb =>
    subst hdb
    rw [Db.advance, OrdMap.get?_set] at hget
    split at hget
    · obtain rfl := Option.some.inj hget
      exact (Option.some.inj hcursor).symm
    · -- the other requests are finalized
      exact absurd (((hf hp).get? hget).symm.trans hopen) (by decide)
  | respond stored' y hget' hy hr hsession =>
    rw [hr, Db.respond, OrdMap.get?_set] at hget
    rw [hsession.cursorTime] at hcursor
    split at hget
    · obtain rfl := Option.some.inj hget
      exact (hc _ _ hget' hy.open_ cursor hcursor).trans hy.cursorTime.symm
    · exact hc id stored hget hopen cursor hcursor

/-- A step that finishes what is there keeps what is not finalized at the cursor. -/
theorem step_current {s s' : State} {l : Label} (h : Current s.db) (hst : Staged s.db)
    (hw : Works s.db s.phase) (hs : Step ctx s l s') (hok : Finishes s l) : Current s'.db := by
  cases hs with
  | commit _ hrun | unacknowledged _ _ hrun => exact (run_writes hst hw hrun).1.current h hok
  | receive | raise | lost | kill | collect => exact h
  | reset hreset =>
    obtain ⟨-, rfl⟩ := resetSession_eq_ok hreset
    exact fun _ _ _ _ => nofun

theorem run_current {s s' : State} (h : Current s.db) (hst : Staged s.db) (hw : Works s.db s.phase)
    (hr : Run ctx (fun s l _ => Finishes s l) s s') : Current s'.db := by
  induction hr with
  | refl => exact h
  | step hr hs hok ih =>
    obtain ⟨hst', hw'⟩ := run_staged hst hw hr
    exact step_current ih hst' hw' hs hok

/-! ## Retries -/

/-- What a client sees of the account. -/
structure SameAccount (db db' : Db) : Prop where
  status : db'.session.status = db.session.status
  cursor : db'.session.cursorTime = db.session.cursorTime
  balance : db'.session.balance = db.session.balance
  equity : db'.session.equity = db.session.equity
  summary : db'.session.summary = db.session.summary
  trades : db'.trades = db.trades

/-- The requests that are recorded can be sent again: those that the session has advanced past
    leave the account alone, and those that are complete change nothing and have the same
    result. -/
def Harmless (ctx : Decimal.Context) (db : Db) : Prop :=
  ∀ request stored, db.requests.get? request.requestId = some stored →
    stored.request = request.params →
    ((∃ cursor ∈ db.session.cursorTime, stored.response.cursorTime < cursor) →
      ∀ s, Run ctx (Resends request) ⟨.idle, db⟩ s → SameAccount db s.db) ∧
    (stored.response.finalized = true → ∀ s, Run ctx (Resends request) ⟨.idle, db⟩ s →
      s.db = { db with source := s.db.source } ∧
        ∀ y, s.phase = .returned (.ok y) → y.execution = stored.response.execution)

theorem Current.harmless (h : Current db) (hst : Staged db) : Harmless ctx db := by
  intro request stored hget hparams
  refine ⟨fun ⟨cursor, hmem, hlt⟩ s hr => ?_, fun hf s hr => ?_⟩
  · -- what the session has advanced past is finalized
    have hf : stored.response.finalized = true := by
      by_contra hn
      rw [h _ _ hget (by simpa using hn) cursor hmem] at hlt
      exact lt_irrefl _ hlt
    obtain ⟨-, hdb⟩ := run_resends hget hparams (hst.complete hget hf) hr
    rw [hdb]
    exact ⟨rfl, rfl, rfl, rfl, rfl, rfl⟩
  · obtain ⟨hphase, hdb⟩ := run_resends hget hparams (hst.complete hget hf) hr
    refine ⟨hdb, fun y hy => ?_⟩
    rw [hy] at hphase
    obtain rfl : y = stored.again := hphase
    rfl

/-- Where sessions advance only once all requests are finalized, requests can be sent again. -/
theorem retries_harmless (hdb : Fresh db n) {s : State}
    (hr : Run ctx (fun s l _ => Finishes s l) ⟨.idle, db⟩ s) : Harmless ctx s.db := by
  have hget : ∀ {id stored}, db.requests.get? id ≠ some stored := by simp [hdb.requests]
  have hcurrent : Current db := fun _ _ hs => absurd hs hget
  exact (run_current (s := ⟨.idle, db⟩) hcurrent hdb.staged trivial hr).harmless
    (run_staged (s := ⟨.idle, db⟩) hdb.staged trivial hr).1

/-- After a retry that finishes the first request, the second one completes the session. -/
theorem retries_harmless_flat : ∃ db s, flatStart = .ok db ∧
    Run .default (fun s l _ => Finishes s l) ⟨.idle, db⟩ s ∧ s.db.session.status = .completed ∧
    Harmless .default s.db := by
  have h : (flatStart.toOption.bind fun db => playAll .default (fun s l => decide (Finishes s l))
      ⟨.idle, db⟩ [.receive flatFirst, .commit, .commit, .commit, .commit, .kill,
        .receive flatFirst, .commit, .commit, .commit, .commit, .commit,
        .receive flatRest, .commit, .commit, .commit, .commit, .commit]).any
      fun s => s.db.session.status = .completed := by decide +kernel
  obtain ⟨db, s, hdb, hrun, hs⟩ := Run.exists_of_start h
  obtain ⟨n, hfresh⟩ := startSession_fresh hdb
  have hrun : Run .default (fun s l _ => Finishes s l) ⟨.idle, db⟩ s := by simpa using hrun
  exact ⟨db, s, hdb, hrun, by simpa using hs, retries_harmless hfresh hrun⟩

/-- When the process is killed before it finalizes the first response, a retry after the session
    is completed takes it back to paused. -/
theorem not_harmless_killed : ¬ ∀ db n, Fresh db n → ∀ s,
    Run .default (fun _ _ _ => True) ⟨.idle, db⟩ s → Harmless .default s.db := by
  intro hall
  -- The first request dies half way, a second one finishes the session, the first is sent again.
  have h : (flatStart.toOption.bind fun db => playAll .default (fun _ _ => true) ⟨.idle, db⟩ [
      .receive flatFirst, .commit, .commit, .commit, .commit, .kill,
      .receive flatRest, .commit, .commit, .commit, .commit, .commit]).any fun s =>
        (s.db.requests.get? "a").any (fun stored => stored.request = flatFirst.params ∧
          s.db.session.cursorTime.any fun cursor => stored.response.cursorTime < cursor) ∧
        (playAll .default (fun _ l => decide (l ≠ .reset ∧ l ≠ .receive))
          ⟨.preflight flatFirst, s.db⟩ [.commit, .commit, .commit, .commit, .commit]).any fun s' =>
            s'.db.session.status ≠ s.db.session.status := by decide +kernel
  obtain ⟨db, s, hdb, hrun, hs⟩ := Run.exists_of_start h
  obtain ⟨n, hfresh⟩ := startSession_fresh hdb
  simp only [Bool.decide_and, Bool.and_eq_true, Option.any_eq_true, decide_eq_true_eq] at hs
  obtain ⟨⟨stored, hget, hparams, cursor, hcursor, hlt⟩, s', hs', hstatus⟩ := hs
  have hreceive : Step .default ⟨.idle, s.db⟩ .receive ⟨.preflight flatFirst, s.db⟩ :=
    .receive flatFirst trivial
  have hresend : Run .default (Resends flatFirst) ⟨.idle, s.db⟩ s' :=
    (Run.step .refl hreceive ⟨by decide, fun _ => rfl⟩).trans <|
      (Run.of_playAll hs').mono fun s l s' hok => by
        simp only [Bool.and_eq_true, decide_eq_true_eq] at hok
        exact ⟨hok.1, fun hl => absurd hl hok.2⟩
  have hsame := (hall db n hfresh s (hrun.mono fun _ _ _ _ => trivial) flatFirst stored hget
    hparams).1 ⟨cursor, hcursor, hlt⟩ s' hresend
  exact hstatus hsame.status

end IntradayBot.Replay
