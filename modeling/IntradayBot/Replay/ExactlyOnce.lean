import IntradayBot.Replay.InOrder

/-!
# Candles are executed once

A pending request blocks the others: either the step under way is one of this request, or the
session is marked as one that has to recover (`Knows`).

This is lost when a step stops with a request that is pending and not marked (`Exposed`): the
process is killed, or the mark fails, or the session advances and this is not acknowledged. And
it is lost when the response of an older request is finalized, which takes the mark away. Runs
without these steps (`Recovers`) execute every candle once, in order (`replay_exactly_once`).
-/

namespace IntradayBot.Replay

open Engine Simulation

variable {ctx : Decimal.Context} {db db' : Db} {n k : ℕ}

/-! ## Phases -/

/-- The session is about to be marked. -/
def Engine.Phase.recovers : Phase → Bool
  | .recover .. => true
  | _ => false

/-- The session is about to advance, for a request that is not recorded. -/
def Engine.Phase.advances (db : Db) : Phase → Bool
  | .advance request => (db.requests.get? request.requestId).isNone
  | _ => false

/-- A response is about to be finalized. -/
def Engine.Phase.finalizes : Phase → Bool
  | .finalize _ executed => executed.execution.isSome && !executed.finalized
  | _ => false

/-- No step leaves behind a pending request that is not marked. -/
def Recovers (s : State) : Label → Prop
  | .receive | .raise | .collect => True
  | .commit => s.phase.finalizes → AllExecuted s.db
  | .unacknowledged => (s.phase.finalizes → AllExecuted s.db) ∧ ¬ s.phase.advances s.db
  | .lost => s.phase.recovers → ¬ Exposed s.db
  | .kill => ¬ Exposed s.db
  | .reset => False

instance (s : State) : DecidablePred (Recovers s)
  | .receive | .raise | .collect => .isTrue trivial
  | .commit => inferInstanceAs (Decidable (_ → AllExecuted s.db))
  | .unacknowledged => inferInstanceAs (Decidable ((_ → AllExecuted s.db) ∧ _))
  | .lost => inferInstanceAs (Decidable (_ → ¬ Exposed s.db))
  | .kill => inferInstanceAs (Decidable (¬ Exposed s.db))
  | .reset => .isFalse id

/-- What a phase knows of the session, which has passed `k` of its `n` candles. -/
def Knows (n k : ℕ) (phase : Phase) (db : Db) : Prop :=
  match phase with
  | .idle | .preflight _ | .advance _ | .returned _ => ¬ Exposed db
  | .strategy x => Recorded db x ∧ (Exposed db → x.execution = none)
  | .execution a x => Recorded db x ∧ (Exposed db → x.execution = none) ∧ (a.completed = true → k = n)
  | .finalize a x => Recorded db x ∧ ¬ Exposed db ∧ (a.completed = true → k = n)
  | .recover a _ => a.completed = true → k = n

/-- What holds of a state in every run that recovers. -/
def OrderlyState (n : ℕ) (s : State) : Prop := ∃ k, Ordered s.db n k ∧ Knows n k s.phase s.db

theorem Recorded.markIdempotent {a x : StepResponse} (h : Recorded db x) :
    Recorded db (markIdempotent a x) := by
  obtain ⟨stored, b, hget, rfl⟩ := h
  rw [Engine.markIdempotent]
  split
  · exact ⟨stored, true, hget, rfl⟩
  · exact ⟨stored, b, hget, rfl⟩

/-- A transaction keeps the order, and the next phase knows what it has to. -/
theorem run_orderly {phase phase' : Phase} (h : Ordered db n k) (hk : Knows n k phase db)
    (hf : phase.finalizes → AllExecuted db) (hrun : phase.run ctx db = .ok (phase', db')) :
    ∃ k', (¬ phase.advances db → ∀ e, Knows n k' (phase.raised e) db') ∧ Ordered db' n k' ∧
      Knows n k' phase' db' := by
  cases phase with
  | idle | returned =>
    obtain ⟨rfl, rfl⟩ := Prod.mk.inj (Except.ok.inj hrun)
    exact ⟨k, fun _ _ => hk, h, hk⟩
  | preflight request =>
    simp only [Phase.run, bind_eq_ok, pure_eq_ok, Prod.mk.injEq] at hrun
    obtain ⟨_, -, rfl, rfl⟩ := hrun
    exact ⟨k, fun _ _ => hk, h, hk⟩
  | advance request =>
    simp only [Phase.run, bind_eq_ok, pure_eq_ok, Prod.mk.injEq] at hrun
    obtain ⟨⟨x, db₁⟩, ha, rfl, rfl⟩ := hrun
    -- A request known before gets its stored answer; a new one moves the session on.
    rcases advanceSession_cases ha with ⟨stored, hget, -, rfl, rfl⟩ | ⟨candles, ha', rfl, rfl⟩
    · exact ⟨k, fun _ _ => hk, h, ⟨stored, true, by rw [h.named _ _ hget]; exact hget, rfl⟩,
        fun hexposed => absurd hexposed hk⟩
    · obtain ⟨k', hle, h'⟩ := h.advance (Ordered.allExecuted hk ha'.status) ha'
      exact ⟨k', fun hn => absurd (by simp [Phase.advances, ha'.fresh]) hn, h',
        .advance request db candles, fun _ => rfl⟩
  | strategy a =>
    simp only [Phase.run, bind_eq_ok, pure_eq_ok, Prod.mk.injEq] at hrun
    obtain ⟨⟨x, db₁⟩, hs, rfl, rfl⟩ := hrun
    obtain ⟨h', hx, he, hexposed⟩ := h.strategy hk.1 hs
    exact ⟨k, fun _ _ => h.recorded_complete hk.1, h', hx,
      fun hd => he.trans (hk.2 (hexposed hd)), h.recorded_complete hk.1⟩
  | execution a x =>
    simp only [Phase.run, bind_eq_ok, pure_eq_ok, Prod.mk.injEq] at hrun
    obtain ⟨⟨y, db₁⟩, hs, rfl, rfl⟩ := hrun
    obtain ⟨h', hy, hall⟩ := h.execution hk.1 hs
    refine ⟨k, fun _ _ => hk.2.2, h', hy.markIdempotent, fun hexposed => ?_, hk.2.2⟩
    rcases hall with hall | ⟨hexecuted, rfl⟩
    · exact hexposed.1 hall
    · exact hexecuted (hk.2.1 hexposed)
  | finalize a x =>
    simp only [Phase.run, bind_eq_ok, pure_eq_ok, Prod.mk.injEq] at hrun
    obtain ⟨⟨y, db₁⟩, hs, rfl, rfl⟩ := hrun
    obtain ⟨h', hexposed⟩ := h.finalize hk.1 (fun he hn => hf (by
      simp [Phase.finalizes, Option.isSome_iff_ne_none.2 he, hn])) hs
    exact ⟨k, fun _ _ => hk.2.2, h', fun hd => hk.2.1 (hexposed hd)⟩
  | recover a e =>
    obtain ⟨rfl, rfl⟩ := Prod.mk.inj (Except.ok.inj hrun)
    have hrunning : ¬ Exposed (markRecoveryRequired a db) := fun hexposed => hexposed.2 rfl
    exact ⟨k, fun _ _ => hrunning, h.mark hk, hrunning⟩

/-- A transaction that raises leaves a phase that knows what it has to. -/
theorem raised_knows {phase : Phase} {e : ReplayError} (h : Ordered db n k)
    (hk : Knows n k phase db) (hr : phase.recovers → ¬ Exposed db) :
    Knows n k (phase.raised e) db := by
  cases phase with
  | idle | preflight | advance | returned => exact hk
  | strategy a => exact h.recorded_complete hk.1
  | execution a x => exact hk.2.2
  | finalize a x => exact hk.2.2
  | recover a e => exact hr rfl

/-- A step that recovers keeps the order. -/
theorem step_orderly {s s' : State} {l : Label} (h : OrderlyState n s) (hs : Step ctx s l s')
    (hok : Recovers s l) : OrderlyState n s' := by
  obtain ⟨k, hordered, hknows⟩ := h
  cases hs with
  | receive request hrests =>
    refine ⟨k, hordered, ?_⟩
    rcases hp : s.phase <;> rw [hp] at hrests hknows <;> first | exact hknows | exact hrests.elim
  | commit hrests hrun =>
    obtain ⟨k', -, h', hk'⟩ := run_orderly hordered hknows hok hrun
    exact ⟨k', h', hk'⟩
  | raise hrun =>
    refine ⟨k, hordered, raised_knows hordered hknows fun hr => ?_⟩
    cases hp : s.phase with
    | recover a e =>
      rw [hp] at hrun
      cases hrun
    | _ =>
      rw [hp] at hr
      cases hr
  | lost reason hq => exact ⟨k, hordered, raised_knows hordered hknows hok⟩
  | unacknowledged reason hq hrun =>
    -- The transaction was committed and its answer lost: the worker raises over the new state.
    obtain ⟨k', hraised, h', -⟩ := run_orderly hordered hknows hok.1 hrun
    exact ⟨k', h', hraised hok.2 _⟩
  | kill =>
    exact ⟨k, hordered, hok⟩
  | reset => exact hok.elim
  | collect hu =>
    refine ⟨k, hordered.collect hu, ?_⟩
    cases hp : s.phase <;> rw [hp] at hknows <;> exact hknows

theorem run_orderlyState {s s' : State} (h : OrderlyState n s)
    (hr : Run ctx (fun s l _ => Recovers s l) s s') : OrderlyState n s' := by
  induction hr with
  | refl => exact h
  | step _ hs hok ih => exact step_orderly ih hs hok

/-! ## Replays -/

/-- The executed candles are the first ones of the session, each once. -/
def InOrder (db : Db) : Prop :=
  db.executedTimes <+: db.candles.map (·.openTime) ∧ db.executedTimes.Nodup

instance : DecidablePred InOrder := fun _ => inferInstanceAs (Decidable (_ ∧ _))

/-- The session advances only when all that it has advanced past is executed. -/
def Waits (s s' : State) : Prop :=
  s'.db.session.cursorTime ≠ s.db.session.cursorTime → AllExecuted s.db

/-- A completed session has executed all candles, and closed all trades. -/
def CompletedOver (db : Db) : Prop :=
  db.session.status = .completed →
    db.executedTimes = db.candles.map (·.openTime) ∧ ∀ t ∈ db.trades, t.status = .closed

/-- Whatever fails meanwhile, candles are executed once and in order, a pending request blocks
    the others, and a completed session is over. -/
def ExactlyOnce (ctx : Decimal.Context) (ok : State → Label → Prop) (db : Db) : Prop :=
  ∀ s, Run ctx (fun s l _ => ok s l) ⟨.idle, db⟩ s →
    InOrder s.db ∧ (∀ l s', Step ctx s l s' → ok s l → Waits s s') ∧
      (s.phase.Rests → CompletedOver s.db)

namespace Ordered

theorem inOrder (h : Ordered db n k) : InOrder db := by
  have hexecuted : db.executedTimes <+: db.session.times k := by
    rcases h.executed with ⟨-, he⟩ | ⟨_, _, -, -, he⟩
    · exact he ▸ List.prefix_rfl
    · exact ⟨_, he⟩
  have hsorted : (db.session.times k).Pairwise (· < ·) :=
    pairwise_grid db.session.timeframe.intervalMs_pos k
  refine ⟨?_, hexecuted.sublist.nodup (hsorted.imp ne_of_lt)⟩
  by_cases hk : k = 0
  · subst hk
    rw [List.prefix_nil.1 hexecuted]
    exact List.nil_prefix
  · obtain ⟨j, rfl⟩ := Nat.exists_eq_add_of_le h.passed.le
    rw [h.passed.times hk, Session.times, grid_add]
    exact hexecuted.trans (List.prefix_append ..)

theorem completedOver (h : Ordered db n k) (hexposed : ¬ Exposed db) : CompletedOver db := by
  intro hs
  have hall : AllExecuted db := by
    by_contra hn
    exact hexposed ⟨hn, by rw [hs]; decide⟩
  obtain ⟨rfl, hopen⟩ := h.status hs
  refine ⟨?_, fun t ht => ?_⟩
  · rcases h.executed with ⟨-, he⟩ | ⟨_, _, hp, -⟩
    · rw [he, h.passed.times h.passed.pos.ne']
    · exact absurd hp.execution (hall.get? hp.get?)
  · have := List.filter_eq_nil_iff.1 (hopen hall) t ht
    rcases hst : t.status with _ | _
    · simp [hst] at this
    · rfl

end Ordered

/-- Only a session that advances moves its cursor, and it waits for what is pending. -/
theorem run_waits {phase phase' : Phase} (hk : Knows n k phase db)
    (hrun : phase.run ctx db = .ok (phase', db'))
    (hcursor : db'.session.cursorTime ≠ db.session.cursorTime) : AllExecuted db := by
  -- The advance alone writes the cursor; the executions write the session they read.
  cases phase with
  | idle | returned =>
    obtain ⟨rfl, rfl⟩ := Prod.mk.inj (Except.ok.inj hrun)
    exact absurd rfl hcursor
  | preflight request =>
    simp only [Phase.run, bind_eq_ok, pure_eq_ok, Prod.mk.injEq] at hrun
    obtain ⟨_, -, rfl, rfl⟩ := hrun
    exact absurd rfl hcursor
  | advance request =>
    simp only [Phase.run, bind_eq_ok, pure_eq_ok, Prod.mk.injEq] at hrun
    obtain ⟨⟨x, db₁⟩, ha, rfl, rfl⟩ := hrun
    rcases advanceSession_cases ha with ⟨stored, hget, -, rfl, rfl⟩ | ⟨candles, ha', rfl, rfl⟩
    · exact absurd rfl hcursor
    · exact Ordered.allExecuted hk ha'.status
  | strategy x =>
    simp only [Phase.run, bind_eq_ok, pure_eq_ok, Prod.mk.injEq] at hrun
    obtain ⟨⟨y, db₁⟩, hs, rfl, rfl⟩ := hrun
    rcases hk.1.strategy_cases hs with ⟨-, rfl, rfl⟩ | ⟨_, _, -, -, -, rfl, rfl⟩ <;>
      exact absurd rfl hcursor
  | execution a x =>
    simp only [Phase.run, bind_eq_ok, pure_eq_ok, Prod.mk.injEq] at hrun
    obtain ⟨⟨y, db₁⟩, hs, rfl, rfl⟩ := hrun
    rcases hk.1.execution_cases hs with ⟨-, rfl, rfl⟩ |
      ⟨_, _, plan, _, _, _, -, -, -, hexecutes, rfl, rfl⟩
    · exact absurd rfl hcursor
    · obtain ⟨_, -, rfl⟩ := hexecutes.plan_eq
      exact absurd rfl hcursor
  | finalize a x =>
    simp only [Phase.run, bind_eq_ok, pure_eq_ok, Prod.mk.injEq] at hrun
    obtain ⟨⟨y, db₁⟩, hs, rfl, rfl⟩ := hrun
    rcases hk.1.finalize_cases hs with ⟨-, rfl, rfl⟩ | ⟨_, _, -, -, -, rfl, rfl⟩ <;>
      exact absurd rfl hcursor
  | recover a e =>
    obtain ⟨rfl, rfl⟩ := Prod.mk.inj (Except.ok.inj hrun)
    exact absurd rfl hcursor

theorem OrderlyState.waits {s s' : State} {l : Label} (h : OrderlyState n s)
    (hs : Step ctx s l s') (hok : Recovers s l) : Waits s s' := by
  obtain ⟨k, -, hknows⟩ := h
  intro hcursor
  cases hs with
  | commit _ hrun | unacknowledged _ _ hrun => exact run_waits hknows hrun hcursor
  | reset => exact hok.elim
  | _ => exact absurd rfl hcursor

theorem Fresh.orderlyState (h : Fresh db n) : OrderlyState n ⟨.idle, db⟩ := by
  have hall : AllExecuted db := by simp [allExecuted_iff, h.requests]
  exact ⟨0, .of_fresh h, fun hexposed => hexposed.1 hall⟩

/-- Runs that recover execute every candle once, in order. -/
theorem replay_exactly_once (hdb : Fresh db n) : ExactlyOnce ctx Recovers db := by
  intro s hr
  have hs := run_orderlyState hdb.orderlyState hr
  refine ⟨?_, fun l s' hstep hok => hs.waits hstep hok, fun hrests => ?_⟩
  · obtain ⟨k, h, -⟩ := hs
    exact h.inOrder
  · obtain ⟨k, h, hk⟩ := hs
    refine h.completedOver ?_
    cases hp : s.phase <;> rw [hp] at hk hrests <;> first | exact hk | exact hrests.elim

/-- A request that is sent again after a failure executes its candle once. -/
theorem replay_exactly_once_flat : ∃ db s, flatStart = .ok db ∧
    Run .default (fun s l _ => Recovers s l) ⟨.idle, db⟩ s ∧
    s.db.executedTimes = [1700000100000] ∧ ExactlyOnce .default Recovers db := by
  have h : (flatStart.toOption.bind fun db => playAll .default (fun s l => decide (Recovers s l))
      ⟨.idle, db⟩ [.receive flatFirst, .commit, .commit, .lost, .commit,
        .receive flatFirst, .commit, .commit, .commit, .commit, .commit]).any fun s =>
          s.db.executedTimes = [1700000100000] := by decide +kernel
  obtain ⟨db, s, hdb, hrun, hs⟩ := Run.exists_of_start h
  obtain ⟨n, hfresh⟩ := startSession_fresh hdb
  exact ⟨db, s, hdb, by simpa using hrun, by simpa using hs, replay_exactly_once hfresh⟩

/-- When the process is killed once the session has advanced, the next request executes the
    other candles, and the first one is not executed before them. -/
theorem not_exactlyOnce_killed :
    ¬ ∀ db n, Fresh db n → ExactlyOnce .default (fun _ _ => True) db := by
  intro hall
  have h : (flatStart.toOption.bind fun db => playAll .default (fun _ _ => true) ⟨.idle, db⟩ [
      .receive flatFirst, .commit, .commit, .kill,
      .receive flatRest, .commit, .commit, .commit, .commit, .commit]).any fun s =>
        decide (¬ InOrder s.db) := by decide +kernel
  obtain ⟨db, s, hdb, hrun, hs⟩ := Run.exists_of_start h
  obtain ⟨n, hfresh⟩ := startSession_fresh hdb
  exact of_decide_eq_true hs (hall db n hfresh s (by simpa using hrun)).1

end IntradayBot.Replay
