import Mathlib.Data.List.DropRight
import Mathlib.Data.List.Sort
import IntradayBot.Replay.Retries

/-!
# The chart of a replay

The visualization reads the source candles of the session up to its cursor, and not the frozen
ones that the session has executed. It shows what was replayed (`Db.replayed`) exactly when the
source candles of this range are still as they were frozen, and are not too many for it
(`Shows`).

Without resets, the cursor of a completed session is at its end (`Ended`), and so no candle
after the cursor is shown, of any session.
-/

namespace IntradayBot.Replay

open Engine Simulation

variable {ctx : Decimal.Context} {db db' : Db} {n k : ℕ} {request : StepRequest}
  {x y : StepResponse} {stored : StoredStep}

/-! ## The query -/

/-- `DEFAULT_CANDLE_LIMIT` -/
def DEFAULT_CANDLE_LIMIT : ℤ := 500

/-- `MAX_CANDLE_LIMIT` -/
def MAX_CANDLE_LIMIT : ℤ := 1000

/-- `_bounded_limit(value)`, of an integer. -/
def boundedLimit (value : Option ℤ) : Except ReplayError {limit : ℕ // 0 < limit} :=
  let result := value.getD DEFAULT_CANDLE_LIMIT
  if h : 1 ≤ result ∧ result ≤ MAX_CANDLE_LIMIT then .ok ⟨result.toNat, by omega⟩
  else .error (.validation s!"limit must be between 1 and {MAX_CANDLE_LIMIT}.")

/-- The candles of a visualization, and what it says of them. -/
structure Visualization where
  candles : List Candle
  candleLimit : ℕ
  returnedCandles : ℕ
  lookaheadBlocked : Bool
  includeFutureRequested : Bool
  includeFutureApplied : Bool

/-- `ReplayVisualizationService.visualization(session_id, limit=, include_future=)` -/
def visualization (limit : Option ℤ) (includeFuture : Bool) (db : Db) :
    Except ReplayError Visualization := do
  let limit ← boundedLimit limit
  let completed := db.session.status = .completed
  let revealFuture := includeFuture = true ∧ completed
  let visibleEnd :=
    if revealFuture ∨ completed then some db.session.endTime else db.session.cursorTime
  let candles := match visibleEnd with
    | none => []
    | some visibleEnd =>
      -- the rows come in descending order, and are reversed
      ((db.source.between db.session.startTime visibleEnd).rows.reverse.take limit).reverse
  return {
    candles
    candleLimit := limit
    returnedCandles := candles.length
    lookaheadBlocked := ¬ completed
    includeFutureRequested := includeFuture
    includeFutureApplied := revealFuture }

/-! ## Candles by their time -/

namespace CandleTable

variable {t t' : CandleTable} {first last time : ℤ} {c : Candle}

/-- The candle at a time. -/
def at? (t : CandleTable) (time : ℤ) : Option Candle := t.rows.find? (·.openTime = time)

theorem at?_eq_some : t.at? time = some c ↔ c ∈ t.rows ∧ c.openTime = time :=
  find?_key_eq_some (t.times_sorted.imp ne_of_lt)

theorem at?_between (hfirst : first ≤ time) (hlast : time ≤ last) :
    (t.between first last).at? time = t.at? time := by
  ext c
  simp only [at?_eq_some, between, List.mem_filter, decide_eq_true_iff]
  constructor
  · rintro ⟨⟨hc, -⟩, htime⟩
    exact ⟨hc, htime⟩
  · rintro ⟨hc, rfl⟩
    exact ⟨⟨hc, hfirst, hlast⟩, rfl⟩

/-- The candles of a range are those at its times. -/
theorem between_eq_iff : (t.between first last).rows = (t'.between first last).rows ↔
    ∀ time, first ≤ time → time ≤ last → t.at? time = t'.at? time := by
  constructor
  · intro h time hfirst hlast
    rw [← at?_between hfirst hlast, at?, h]
    exact at?_between hfirst hlast
  · intro h
    have hirrefl : Std.Irrefl fun a b : Candle => a.openTime < b.openTime :=
      ⟨fun a => lt_irrefl a.openTime⟩
    refine (t.between first last).sorted.eq_of_mem_iff (t'.between first last).sorted fun c => ?_
    simp only [between, List.mem_filter, decide_eq_true_iff]
    refine and_congr_left fun ⟨hfirst, hlast⟩ => ?_
    have := h c.openTime hfirst hlast
    constructor
    · intro hc
      exact (at?_eq_some.1 (this ▸ at?_eq_some.2 ⟨hc, rfl⟩)).1
    · intro hc
      exact (at?_eq_some.1 (this.symm ▸ at?_eq_some.2 ⟨hc, rfl⟩)).1

end CandleTable

/-- The last ones of a list are all that starts with some member, if it does not come before. -/
theorem rtake_eq_iff {l l' : List Candle} {limit : ℕ} (hlimit : 0 < limit)
    (hl : l.Pairwise fun a b => a.openTime < b.openTime)
    (hfirst : ∀ c ∈ l'.head?, ∀ a ∈ l, c.openTime ≤ a.openTime) :
    l.rtake limit = l' ↔ l'.length ≤ limit ∧ l = l' := by
  constructor
  · rintro rfl
    refine ⟨by rw [List.rtake, List.length_drop]; omega, ?_⟩
    rw [List.rtake] at hfirst ⊢
    rcases hlen : l.length - limit with _ | m
    · rfl
    -- else the candle before the last ones would be one of before the first of them
    exfalso
    have hm : m < l.length := by omega
    have hm' : m + 1 < l.length := by omega
    rw [hlen, List.head?_drop, List.getElem?_eq_getElem hm'] at hfirst
    have hle := hfirst _ rfl l[m] (List.getElem_mem hm)
    have hlt := List.pairwise_iff_getElem.1 hl m (m + 1) hm hm' (Nat.lt_succ_self m)
    exact hle.not_gt hlt
  · rintro ⟨hlen, rfl⟩
    rw [List.rtake, Nat.sub_eq_zero_of_le hlen, List.drop_zero]

/-! ## Sessions at their end -/

/-- A session that says that it is completed has passed all its candles. -/
structure Ended (db : Db) (n k : ℕ) : Prop where
  passed : Passed db n k
  cursor : db.session.cursorTime ≠ none → k ≠ 0
  status : db.session.status = .completed → k = n
  pendingFinal : db.session.summary.pendingFinalStatus = some .completed → k = n
  completed : ∀ id stored, db.requests.get? id = some stored →
    stored.response.completed = true → k = n
  final : ∀ id stored, db.requests.get? id = some stored →
    stored.response.session.status = .completed → k = n

/-- The step under way is of a session at its end if it says so. -/
def Engine.Phase.Ended (n k : ℕ) (phase : Phase) : Prop :=
  ∀ a, phase.advanced? = some a → a.completed = true → k = n

theorem ended_of_none {phase : Phase} (h : phase.advanced? = none) : phase.Ended n k := by
  intro a ha
  rw [h] at ha
  cases ha

theorem SameCandles.passed (h : SameCandles db db') (hp : Passed db n k) : Passed db' n k :=
  hp.congr (by rw [h.session]) (by rw [h.session]) (by rw [h.session]) (by rw [h.session])
    h.snapshot h.source

namespace Ended

/-- A response is enriched, and the account changes. -/
theorem respond (h : Ended db n k) (hget : db.requests.get? y.requestId = some stored)
    (hcompleted : y.completed = stored.response.completed)
    (hfinal : y.session.status = .completed → k = n)
    (hrequests : db'.requests = (db.respond stored y).requests) (hsame : SameCandles db db')
    (hstatus : db'.session.status = .completed → k = n)
    (hpending : db'.session.summary.pendingFinalStatus = some .completed → k = n) :
    Ended db' n k := by
  have hget' : ∀ id, db'.requests.get? id =
      if id = y.requestId then some { stored with response := y } else db.requests.get? id :=
    fun id => by rw [hrequests]; exact OrdMap.get?_set ..
  refine ⟨hsame.passed h.passed, hsame.cursorTime ▸ h.cursor, hstatus, hpending,
    fun id s hs => ?_, fun id s hs => ?_⟩ <;> rw [hget'] at hs <;> split at hs
  · obtain rfl := Option.some.inj hs
    exact fun hc => h.completed _ _ hget (hcompleted ▸ hc)
  · exact h.completed _ _ hs
  · obtain rfl := Option.some.inj hs
    exact hfinal
  · exact h.final _ _ hs

/-- The session advances: it did not say that it is completed. -/
theorem advance (h : Ended db n k) {candles : {l : List Candle // l ≠ []}}
    (ha : Advances request db candles) :
    ∃ k', Ended (db.advance request candles) n k' ∧
      ((advanced request db.session candles).completed = true → k' = n) := by
  obtain ⟨c, hc, hle, -, -, hpassed, hcompleted⟩ :
      ∃ c, 0 < c ∧ k + c ≤ n ∧ candles.1 = (db.candles.drop k).take c ∧
        (db.advance request candles).candles = db.candles ∧
        Passed (db.advance request candles) n (k + c) ∧
        ((advanced request db.session candles).completed = true ↔ k + c = n) :=
    h.passed.advance ha.batch rfl rfl
  have hk : ¬ k = n := by omega
  have hget' : ∀ id, (db.advance request candles).requests.get? id =
      if id = request.requestId then some ⟨request.params, advanced request db.session candles⟩
      else db.requests.get? id := fun id => OrdMap.get?_set ..
  have hstatus : (advanced request db.session candles).session.status = .completed → k + c = n := by
    intro hs
    exact hcompleted.1 (decide_eq_true hs)
  -- The new answer ends the session or it does not; the old ones were written before the end.
  refine ⟨k + c, ⟨hpassed, fun _ => by omega, hstatus, fun hp => absurd (h.pendingFinal hp) hk,
    fun id s hs => ?_, fun id s hs => ?_⟩, hcompleted.1⟩ <;> rw [hget'] at hs <;> split at hs
  · obtain rfl := Option.some.inj hs
    exact hcompleted.1
  · exact fun hc => absurd (h.completed _ _ hs hc) hk
  · obtain rfl := Option.some.inj hs
    exact hstatus
  · exact fun hc => absurd (h.final _ _ hs hc) hk

theorem recorded (h : Ended db n k) (hx : Recorded db x) :
    (x.completed = true → k = n) ∧ (x.session.status = .completed → k = n) := by
  obtain ⟨stored, b, hget, rfl⟩ := hx
  exact ⟨h.completed _ _ hget, h.final _ _ hget⟩

end Ended

/-- A transaction keeps the end of the session. -/
theorem run_ended {phase phase' : Phase} (hw : Works db phase) (hnamed : Staged db)
    (h : Ended db n k) (hp : phase.Ended n k) (hrun : phase.run ctx db = .ok (phase', db')) :
    ∃ k', Ended db' n k' ∧ phase'.Ended n k' ∧ ∀ e, (phase.raised e).Ended n k' := by
  cases phase with
  | idle | returned =>
    obtain ⟨rfl, rfl⟩ := Prod.mk.inj (Except.ok.inj hrun)
    exact ⟨k, h, ended_of_none rfl, fun _ => ended_of_none rfl⟩
  | preflight request =>
    simp only [Phase.run, bind_eq_ok, pure_eq_ok, Prod.mk.injEq] at hrun
    obtain ⟨_, -, rfl, rfl⟩ := hrun
    exact ⟨k, h, ended_of_none rfl, fun _ => ended_of_none rfl⟩
  | advance request =>
    simp only [Phase.run, bind_eq_ok, pure_eq_ok, Prod.mk.injEq] at hrun
    obtain ⟨⟨x, db₁⟩, ha, rfl, rfl⟩ := hrun
    rcases advanceSession_cases ha with ⟨stored, hget, -, rfl, rfl⟩ | ⟨candles, ha', rfl, rfl⟩
    · refine ⟨k, h, fun a ha => ?_, fun _ => ended_of_none rfl⟩
      obtain rfl := Option.some.inj ha
      exact h.completed _ _ hget
    · obtain ⟨k', h', hc⟩ := h.advance ha'
      refine ⟨k', h', fun a ha => ?_, fun _ => ended_of_none rfl⟩
      obtain rfl := Option.some.inj ha
      exact hc
  | strategy a =>
    simp only [Phase.run, bind_eq_ok, pure_eq_ok, Prod.mk.injEq] at hrun
    obtain ⟨⟨y, db₁⟩, hs, rfl, rfl⟩ := hrun
    refine ⟨k, ?_, hp, fun _ => hp⟩
    rcases Recorded.strategy_cases hw hs with ⟨-, rfl, rfl⟩ |
      ⟨stored, decisions, -, hget, -, hy, rfl⟩
    · exact h
    · have hstored := Recorded.requestId hw hget
      refine h.respond (y := y) (hy ▸ hget) ?_ ?_ rfl ⟨rfl, rfl, rfl⟩ h.status h.pendingFinal
      · rw [hy, hstored]
        rfl
      · rw [hy]
        exact (h.recorded hw).2
  | execution a x =>
    simp only [Phase.run, bind_eq_ok, pure_eq_ok, Prod.mk.injEq] at hrun
    obtain ⟨⟨y, db₁⟩, hs, rfl, rfl⟩ := hrun
    refine ⟨k, ?_, hp, fun _ => hp⟩
    rcases Recorded.execution_cases hw.1 hs with ⟨-, rfl, rfl⟩ |
      ⟨stored, strategy, plan, sim, totals, execution, -, -, hget, hexecutes, hy, rfl⟩
    · exact h
    · have hstored := Recorded.requestId hw.1 hget
      obtain ⟨config, -, hplan⟩ := hexecutes.plan_eq
      -- the final status is the one that is pending, or else the one of the response
      have hstatus : y.session.status = .completed → k = n := by
        rw [hy, hplan]
        intro hs
        change targetStatus db.session x = .completed at hs
        rw [targetStatus] at hs
        rcases hf : db.session.summary.pendingFinalStatus with _ | status
        · rw [hf, Option.getD_none] at hs
          split at hs
          · exact (h.recorded hw.1).1 ‹_›
          · cases hs
        · rw [hf, Option.getD_some] at hs
          exact h.pendingFinal (hs ▸ hf)
      refine h.respond (y := y) (hy ▸ hget) ?_ hstatus rfl ⟨?_, rfl, rfl⟩ hstatus ?_
      · rw [hy, hstored]
      · rw [hy]
        simp only [settle, hplan, Simulation.plan]
      · rw [hy]
        intro hp
        cases hp
  | finalize a x =>
    simp only [Phase.run, bind_eq_ok, pure_eq_ok, Prod.mk.injEq] at hrun
    obtain ⟨⟨y, db₁⟩, hs, rfl, rfl⟩ := hrun
    refine ⟨k, ?_, ended_of_none rfl, fun _ => hp⟩
    rcases Recorded.finalize_cases hw.1 hs with ⟨-, rfl, rfl⟩ |
      ⟨stored, execution, -, -, hget, hy, rfl⟩
    · exact h
    · have hstored := Recorded.requestId hw.1 hget
      have hstatus : y.session.status = .completed → k = n := by
        rw [hy]
        exact (h.recorded hw.1).2
      refine h.respond (y := y) (hy ▸ hget) ?_ hstatus rfl ⟨rfl, rfl, rfl⟩ hstatus ?_
      · rw [hy, hstored]
        rfl
      · rw [hy]
        intro hp
        cases hp
  | recover a e =>
    obtain ⟨rfl, rfl⟩ := Prod.mk.inj (Except.ok.inj hrun)
    have hsame : SameCandles db (markRecoveryRequired a db) := ⟨rfl, rfl, rfl⟩
    refine ⟨k, ⟨hsame.passed h.passed, h.cursor, fun hs => (by cases hs), fun hs => ?_,
      h.completed, h.final⟩,
      ended_of_none rfl, fun _ => ended_of_none rfl⟩
    simp only [markRecoveryRequired, Option.some_inj] at hs
    split at hs
    · exact hp a rfl ‹_›
    · cases hs

/-- Every step but a reset keeps the end of the session. -/
theorem step_ended {s s' : State} {l : Label} (hst : Staged s.db) (hw : Works s.db s.phase)
    (h : Ended s.db n k) (hp : s.phase.Ended n k) (hs : Step ctx s l s') (hl : l ≠ .reset) :
    ∃ k', Ended s'.db n k' ∧ s'.phase.Ended n k' := by
  have hraised : ∀ e, (s.phase.raised e).Ended n k := fun e a ha => by
    cases hphase : s.phase <;> rw [hphase] at hp ha <;> first | exact hp a ha | cases ha
  cases hs with
  | receive | kill => exact ⟨k, h, ended_of_none rfl⟩
  | commit hrests hrun =>
    obtain ⟨k', h', hp', -⟩ := run_ended hw hst h hp hrun
    exact ⟨k', h', hp'⟩
  | raise | lost => exact ⟨k, h, hraised _⟩
  | unacknowledged reason hq hrun =>
    obtain ⟨k', h', -, hp'⟩ := run_ended hw hst h hp hrun
    exact ⟨k', h', hp' _⟩
  | reset => exact absurd rfl hl
  | collect hu =>
    exact ⟨k, ⟨h.passed.collect hu, h.cursor, h.status, h.pendingFinal, h.completed, h.final⟩, hp⟩

theorem run_ended_all {s s' : State} (hst : Staged s.db) (hw : Works s.db s.phase)
    (h : Ended s.db n k) (hp : s.phase.Ended n k)
    (hr : Run ctx (fun _ l _ => l ≠ .reset) s s') : ∃ k', Ended s'.db n k' ∧ s'.phase.Ended n k' := by
  induction hr with
  | refl => exact ⟨k, h, hp⟩
  | step hr hs hl ih =>
    obtain ⟨k', h', hp'⟩ := ih
    obtain ⟨hst', hw'⟩ := run_staged hst hw hr
    exact step_ended hst' hw' h' hp' hs hl

theorem Fresh.ended (h : Fresh db n) : Ended db n 0 := by
  have hget : ∀ {id stored}, db.requests.get? id ≠ some stored := by simp [h.requests]
  exact ⟨h.passed, fun hne => absurd h.cursor hne, by rw [h.status]; nofun,
    by rw [h.summary]; nofun, fun _ _ hs => absurd hs hget, fun _ _ hs => absurd hs hget⟩

/-! ## What is shown -/

/-- The frozen candles up to the cursor. -/
def Db.replayed (db : Db) : List Candle :=
  match db.session.cursorTime with
  | none => []
  | some cursor => db.snapshot.rows.filter (·.openTime ≤ cursor)

/-- The source candles up to the cursor are as they were frozen. -/
def Unchanged (db : Db) : Prop :=
  ∀ cursor ∈ db.session.cursorTime, ∀ time, db.session.startTime ≤ time → time ≤ cursor →
    db.source.at? time = db.snapshot.at? time

/-- The candles of a visualization are those that were replayed, and none is after the cursor. -/
def Shows (db : Db) (v : Visualization) : Prop :=
  v.candles = db.replayed ∧
    (db.session.status ≠ .completed → ∀ c ∈ v.candles, ∃ cursor ∈ db.session.cursorTime,
      c.openTime ≤ cursor)

/-- The candles come from the source, up to the cursor. -/
theorem Ended.candles_eq (h : Ended db n k) {limit : Option ℤ} {includeFuture : Bool}
    {v : Visualization} (hv : visualization limit includeFuture db = .ok v) :
    0 < v.candleLimit ∧ v.candles = match db.session.cursorTime with
      | none => []
      | some cursor =>
        (db.source.between db.session.startTime cursor).rows.rtake v.candleLimit := by
  simp only [visualization, bind_eq_ok, pure_eq_ok] at hv
  obtain ⟨limit, -, rfl⟩ := hv
  refine ⟨limit.2, ?_⟩
  by_cases hs : db.session.status = .completed
  · -- the cursor is at the end of the session
    have hk := h.status hs
    have hcursor : db.session.cursorTime = some db.session.endTime := by
      have hnext := h.passed.next
      have hpos := h.passed.pos
      rcases hc : db.session.cursorTime with _ | cursor
      · rw [Session.nextTime, hc] at hnext
        have h0 : db.session.timeAt 0 = db.session.timeAt k := by
          rw [← hnext, Session.timeAt]
          simp
        have := db.session.timeAt_inj.1 h0
        omega
      · rw [Session.nextTime, hc] at hnext
        rw [h.passed.last, ← hk]
        simp only [Session.timeAt] at hnext ⊢
        rw [Nat.cast_sub (by omega)]
        push_cast
        congr 1
        linarith
    simp only [hs, hcursor, List.rtake_eq_reverse_take_reverse]
    simp
  · simp only [hs, and_false, or_self, if_false, List.rtake_eq_reverse_take_reverse]

/-- No candle after the cursor is shown. -/
theorem Ended.le_cursor (h : Ended db n k) {limit : Option ℤ} {includeFuture : Bool}
    {v : Visualization} (hv : visualization limit includeFuture db = .ok v) :
    ∀ c ∈ v.candles, ∃ cursor ∈ db.session.cursorTime, c.openTime ≤ cursor := by
  intro c hcmem
  rw [(h.candles_eq hv).2] at hcmem
  rcases hc : db.session.cursorTime with _ | cursor <;> rw [hc] at hcmem
  · cases hcmem
  · exact ⟨cursor, rfl, (of_decide_eq_true (List.mem_filter.1 (List.mem_of_mem_drop hcmem)).2).2⟩

/-- The chart shows what was replayed exactly when the source is as it was frozen, and there are
    not too many candles. -/
theorem Ended.shows_iff (h : Ended db n k) {limit : Option ℤ} {includeFuture : Bool}
    {v : Visualization} (hv : visualization limit includeFuture db = .ok v) :
    Shows db v ↔ db.replayed.length ≤ v.candleLimit ∧ Unchanged db := by
  obtain ⟨hlimit, hcandles⟩ := h.candles_eq hv
  rcases hc : db.session.cursorTime with _ | cursor
  · rw [hc] at hcandles
    simp [Shows, Db.replayed, Unchanged, hc, hcandles]
  rw [hc] at hcandles
  dsimp only at hcandles
  have hk : k ≠ 0 := h.cursor (by rw [hc]; exact Option.some_ne_none _)
  have htimes : db.snapshot.rows.map (·.openTime) = db.session.times n := by
    have := h.passed.times hk
    rwa [Db.candles, Db.ensuredSnapshot, if_neg (h.passed.frozen hk)] at this
  have hstart : ∀ c ∈ db.snapshot.rows, db.session.startTime ≤ c.openTime := fun c hcmem => by
    have hmem : c.openTime ∈ db.session.times n := htimes ▸ List.mem_map_of_mem hcmem
    obtain ⟨i, -, hi⟩ := List.mem_map.1 hmem
    have := db.session.timeframe.intervalMs_pos
    rw [← hi]
    nlinarith
  have hreplayed : db.replayed = (db.snapshot.between db.session.startTime cursor).rows := by
    rw [Db.replayed, hc]
    refine List.filter_congr fun c hcmem => ?_
    simp [hstart c hcmem]
  -- the first candle that was replayed is the first one of the session
  have hfirst : ∀ c ∈ db.replayed.head?, c.openTime ≤ db.session.startTime := fun c hhead => by
    obtain ⟨m, rfl⟩ := Nat.exists_eq_succ_of_ne_zero h.passed.pos.ne'
    rcases hrows : db.snapshot.rows with _ | ⟨c₀, rows⟩
    · exact absurd hrows (h.passed.frozen hk)
    have hc₀ : c₀.openTime = db.session.startTime := by
      rw [hrows, Session.times, Nat.succ_eq_add_one, Nat.add_comm, grid_add] at htimes
      exact (List.cons.inj htimes).1.trans (by simp)
    have hmem := List.mem_filter.1 (hreplayed ▸ List.mem_of_mem_head? hhead)
    obtain ⟨hle, hlast⟩ := of_decide_eq_true hmem.2
    rw [Db.replayed, hc, hrows] at hhead
    dsimp only at hhead
    rw [List.filter_cons_of_pos (by simpa [hc₀] using hle.trans hlast)] at hhead
    obtain rfl := Option.some.inj hhead
    exact hc₀.le
  have hiff : (db.source.between db.session.startTime cursor).rows.rtake v.candleLimit =
      db.replayed ↔ db.replayed.length ≤ v.candleLimit ∧
        (db.source.between db.session.startTime cursor).rows = db.replayed :=
    rtake_eq_iff hlimit (db.source.between db.session.startTime cursor).sorted
      fun c hhead a ha => (hfirst c hhead).trans (of_decide_eq_true (List.mem_filter.1 ha).2).1
  rw [Shows, and_iff_left fun _ => h.le_cursor hv, hcandles, hiff, hreplayed,
    CandleTable.between_eq_iff]
  simp only [Unchanged, hc, Option.mem_some_iff, forall_eq']

/-- The chart of a session shows what was replayed exactly when the source candles up to the
    cursor are as they were frozen, and are not too many. -/
theorem visualization_shows_iff (hdb : Fresh db n) {s : State}
    (hr : Run ctx (fun _ l _ => l ≠ .reset) ⟨.idle, db⟩ s) {limit : Option ℤ}
    {includeFuture : Bool} {v : Visualization}
    (hv : visualization limit includeFuture s.db = .ok v) :
    (Shows s.db v ↔ s.db.replayed.length ≤ v.candleLimit ∧ Unchanged s.db) ∧
      ∀ c ∈ v.candles, ∃ cursor ∈ s.db.session.cursorTime, c.openTime ≤ cursor := by
  obtain ⟨k, h, -⟩ := run_ended_all (s := ⟨.idle, db⟩) hdb.staged trivial hdb.ended
    (ended_of_none rfl) hr
  exact ⟨h.shows_iff hv, h.le_cursor hv⟩

/-- After a step over the first candle, it is the only one of the chart. -/
theorem visualization_shows_iff_flat : ∃ db s v, flatStart = .ok db ∧
    Run .default (fun _ l _ => l ≠ .reset) ⟨.idle, db⟩ s ∧
    visualization none false s.db = .ok v ∧ v.candles = [flatCandle 0] ∧
    (Shows s.db v ↔ s.db.replayed.length ≤ v.candleLimit ∧ Unchanged s.db) := by
  have h : (flatStart.toOption.bind fun db => playAll .default (fun _ l => decide (l ≠ .reset))
      ⟨.idle, db⟩ [.receive flatFirst, .commit, .commit, .commit, .commit, .commit]).any fun s =>
        (visualization none false s.db).toOption.any fun v => v.candles = [flatCandle 0] := by
    decide +kernel
  obtain ⟨db, s, hdb, hrun, hs⟩ := Run.exists_of_start h
  obtain ⟨n, hfresh⟩ := startSession_fresh hdb
  have hrun : Run .default (fun _ l _ => l ≠ .reset) ⟨.idle, db⟩ s :=
    hrun.mono fun _ _ _ hok => of_decide_eq_true hok
  rcases hv : visualization none false s.db with e | v <;> rw [hv] at hs
  · cases hs
  · exact ⟨db, s, v, hdb, hrun, hv, of_decide_eq_true hs,
      (visualization_shows_iff hfresh hrun hv).1⟩

/-- The first candle, written again with another close. -/
def flatCandleAgain : Candle := { flatCandle 0 with highPrice := 101, closePrice := 101 }

/-- When the collector writes a candle again after the session has executed it, the chart shows
    the new one. -/
theorem not_shows_collected : ¬ ∀ db n, Fresh db n → ∀ s,
    Run .default (fun _ l _ => l ≠ .reset) ⟨.idle, db⟩ s → ∀ limit includeFuture v,
    visualization limit includeFuture s.db = .ok v → Shows s.db v := by
  intro hall
  have h : (flatStart.toOption.bind fun db => playAll .default (fun _ l => decide (l ≠ .reset))
      ⟨.idle, db⟩ [.receive flatFirst, .commit, .commit, .commit, .commit, .commit,
        .collect flatCandleAgain]).any fun s =>
        (visualization none false s.db).toOption.any fun v => v.candles ≠ s.db.replayed := by
    decide +kernel
  obtain ⟨db, s, hdb, hrun, hs⟩ := Run.exists_of_start h
  obtain ⟨n, hfresh⟩ := startSession_fresh hdb
  rcases hv : visualization none false s.db with e | v <;> rw [hv] at hs
  · cases hs
  · have hshows := hall db n hfresh s (hrun.mono fun _ _ _ hok => of_decide_eq_true hok) none false
      v hv
    exact of_decide_eq_true hs hshows.1

end IntradayBot.Replay
