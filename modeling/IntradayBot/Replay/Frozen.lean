import IntradayBot.Data.Except
import IntradayBot.Replay.StepRepository

/-!
# The candles of a session

A session that is started has all candles of its range. Those that it freezes are on the grid
of its timeframe, once it steps: there are as many as there should be, and none is missing.
The candles of a step are then a slice of them, which starts after what the session
has passed (`Passed`, `batch_slice`).
-/

namespace IntradayBot.Replay

variable {db db' : Db} {n k : ℕ}

theorem Timeframe.intervalMs_pos (timeframe : Timeframe) : 0 < timeframe.intervalMs := by
  cases timeframe <;> decide

/-- The candles that the session steps through. -/
def Db.candles (db : Db) : List Candle := db.ensuredSnapshot.rows

/-- The time of the candle `i` of the session. -/
def Session.timeAt (s : Session) (i : ℕ) : ℤ := s.startTime + i * s.timeframe.intervalMs

/-- The times of the first `n` candles of the session. -/
def Session.times (s : Session) (n : ℕ) : List ℤ := grid s.startTime s.timeframe.intervalMs n

/-- The session has passed `k` of its `n` candles. -/
structure Passed (db : Db) (n k : ℕ) : Prop where
  le : k ≤ n
  pos : 0 < n
  last : db.session.endTime = db.session.timeAt (n - 1)
  next : db.session.nextTime = db.session.timeAt k
  covers : db.session.times n ⊆ db.candles.map (·.openTime)
  frozen : k ≠ 0 → db.snapshot.rows ≠ []
  times : k ≠ 0 → db.candles.map (·.openTime) = db.session.times n

theorem CandleTable.times_sorted (t : CandleTable) : (t.rows.map (·.openTime)).Pairwise (· < ·) :=
  List.pairwise_map.2 t.sorted

/-- Of the times of a session, there are as many as of its candles. -/
theorem Session.span_timeAt (s : Session) {i j : ℕ} (h : i ≤ j) :
    s.span (s.timeAt i) (s.timeAt j) = (j - i : ℕ) + 1 := by
  have hpos := s.timeframe.intervalMs_pos
  rw [span, timeAt, timeAt, Nat.cast_sub h]
  congr 1
  rw [← Int.mul_ediv_cancel ((j : ℤ) - i) hpos.ne']
  congr 1
  ring

theorem Session.timeAt_le (s : Session) {i j : ℕ} : s.timeAt i ≤ s.timeAt j ↔ i ≤ j :=
  grid_le_iff s.timeframe.intervalMs_pos

theorem Session.timeAt_inj (s : Session) {i j : ℕ} : s.timeAt i = s.timeAt j ↔ i = j := by
  rw [le_antisymm_iff, s.timeAt_le, s.timeAt_le, le_antisymm_iff]

/-- The candles of a step are among those of the session. -/
theorem mem_candles_of_batch {steps : ℕ} {candles : {l : List Candle // l ≠ []}}
    (h : batch db steps = .ok candles) {c : Candle} (hc : c ∈ candles.1) : c ∈ db.candles := by
  rw [batch] at h
  dsimp only at h
  split at h
  · cases h
  split at h
  · cases h
  split at h
  · obtain rfl := Except.ok.inj h
    exact (List.mem_filter.1 hc).1
  · cases h

namespace Passed

theorem span (h : Passed db n k) :
    db.session.span db.session.startTime db.session.endTime = n := by
  have := db.session.span_timeAt (Nat.zero_le (n - 1))
  rw [← h.last] at this
  have hpos := h.pos
  simp only [Session.timeAt, Nat.cast_zero, zero_mul, add_zero] at this
  rw [this]
  omega

/-- With as many candles as there should be, the candles are on the grid. -/
theorem times_of_length (h : Passed db n k)
    (hlen : (db.candles.length : ℤ) = db.session.span db.session.startTime db.session.endTime) :
    db.candles.map (·.openTime) = db.session.times n := by
  rw [h.span, Nat.cast_inj] at hlen
  exact eq_grid db.session.timeframe.intervalMs_pos db.ensuredSnapshot.times_sorted h.covers
    (by rw [List.length_map]; exact hlen)

theorem remaining (h : Passed db n k) :
    (if db.session.endTime < db.session.nextTime then 0
      else db.session.span db.session.nextTime db.session.endTime) = (n - k : ℕ) := by
  have hle := h.le
  have hpos := h.pos
  rw [h.last, h.next]
  split
  · rename_i hlt
    have : ¬ k ≤ n - 1 := fun hk => hlt.not_ge (db.session.timeAt_le.2 hk)
    omega
  · rename_i hge
    have hk : k ≤ n - 1 := db.session.timeAt_le.1 (not_lt.1 hge)
    rw [db.session.span_timeAt hk]
    omega

/-- Until the session is over, it has next candles. -/
theorem exists_batch (h : Passed db n k) (htimes : db.candles.map (·.openTime) = db.session.times n)
    (hk : k < n) {steps : ℕ} (hs : 0 < steps) : ∃ candles, batch db steps = .ok candles := by
  have hlen : (db.candles.length : ℤ) = db.session.span db.session.startTime db.session.endTime := by
    rw [h.span, ← List.length_map (f := (·.openTime)), htimes, Session.times, length_grid]
  have hnext : ¬ db.session.endTime < db.session.nextTime := by
    rw [h.last, h.next, not_lt, Session.timeAt_le]
    omega
  have hrem := h.remaining
  rw [if_neg hnext] at hrem
  -- The batch asks for a range of times, which on the grid is a range of places.
  have hcandles : (db.candles.filter fun c => db.session.nextTime ≤ c.openTime ∧
      c.openTime ≤ db.session.nextTime + (((min steps (n - k) : ℕ) : ℤ) - 1) *
        db.session.timeframe.intervalMs) = (db.candles.drop k).take (min steps (n - k)) := by
    rw [h.next]
    exact filter_between_grid db.session.timeframe.intervalMs_pos htimes (by omega)
  have hexpected : ((db.candles.drop k).take (min steps (n - k))).map (·.openTime) =
      db.session.expectedTimes (min steps (n - k)) := by
    rw [List.map_take, List.map_drop, htimes, Session.times, Session.expectedTimes,
      take_drop_grid _ _ (by omega), h.next]
    rfl
  have hne : (db.candles.drop k).take (min steps (n - k)) ≠ [] := by
    have hn : db.candles.length = n := by
      rw [← List.length_map (f := (·.openTime)), htimes, Session.times, length_grid]
    rw [← List.length_pos_iff, List.length_take, List.length_drop]
    omega
  have hcount : n - k = (db.session.span db.session.nextTime db.session.endTime).toNat := by
    rw [hrem, Int.toNat_natCast]
  rw [← hcandles, hcount] at hexpected hne
  have hlen : ¬ (db.ensuredSnapshot.rows.length : ℤ) ≠
      db.session.span db.session.startTime db.session.endTime := not_not.2 hlen
  rw [batch]
  dsimp only
  rw [if_neg hlen, if_neg hnext]
  exact ⟨_, dif_pos ⟨hexpected, hne⟩⟩

/-- The next candles are a slice of those of the session. -/
theorem slice (h : Passed db n k) {steps : ℕ} (hs : 0 < steps)
    {candles : {l : List Candle // l ≠ []}} (hb : batch db steps = .ok candles) :
    k < n ∧ db.candles.map (·.openTime) = db.session.times n ∧
      candles.1 = (db.candles.drop k).take (min steps (n - k)) := by
  rw [batch] at hb
  dsimp only at hb
  split at hb
  · cases hb
  rename_i hlen
  split at hb
  · cases hb
  rename_i hle
  split at hb
  · rename_i hc
    have htimes := h.times_of_length (not_not.1 hlen)
    have hrem := h.remaining
    rw [if_neg hle] at hrem
    -- The next time is not past the end, so a candle is left.
    have hk : k < n := by
      have hkn : k ≤ n - 1 := db.session.timeAt_le.1 (by rw [← h.last, ← h.next]; exact not_lt.1 hle)
      have := h.pos
      omega
    refine ⟨hk, htimes, ?_⟩
    obtain rfl := Except.ok.inj hb
    rw [← filter_between_grid db.session.timeframe.intervalMs_pos htimes
      (by omega : 0 < min steps (n - k))]
    dsimp only
    rw [hrem, h.next]
    rfl
  · cases hb

/-- What only changes the account of the session passes no candle. -/
theorem congr (h : Passed db n k) (hs : db'.session.timeframe = db.session.timeframe)
    (hstart : db'.session.startTime = db.session.startTime)
    (hend : db'.session.endTime = db.session.endTime)
    (hcursor : db'.session.cursorTime = db.session.cursorTime)
    (hsnapshot : db'.snapshot = db.snapshot) (hsource : db'.source = db.source) :
    Passed db' n k := by
  have htime : ∀ i, db'.session.timeAt i = db.session.timeAt i := fun i => by
    rw [Session.timeAt, Session.timeAt, hs, hstart]
  have hnext : db'.session.nextTime = db.session.nextTime := by
    rw [Session.nextTime, Session.nextTime, hcursor, hs, hstart]
  have hcandles : db'.candles = db.candles := by
    rw [Db.candles, Db.candles, Db.ensuredSnapshot, Db.ensuredSnapshot, snapshotSessionCandles,
      snapshotSessionCandles, hsnapshot, hsource, hstart, hend]
  have htimes : db'.session.times n = db.session.times n := by
    rw [Session.times, Session.times, hs, hstart]
  exact ⟨h.le, h.pos, by rw [hend, htime, h.last], by rw [hnext, htime, h.next],
    by rw [htimes, hcandles]; exact h.covers, by rw [hsnapshot]; exact h.frozen,
    by rw [htimes, hcandles]; exact h.times⟩

end Passed

/-! ## Steps -/

/-- The candles of a step are on the grid, and the last one is at the end of it. -/
theorem times_of_slice {candles : List Candle} {c : ℕ} (hne : candles ≠ [])
    (htimes : db.candles.map (·.openTime) = db.session.times n) (hle : k + c ≤ n)
    (hslice : candles = (db.candles.drop k).take c) :
    (candles.getLast hne).openTime = db.session.timeAt (k + c - 1) ∧
      ∀ candle ∈ candles, ∃ i, k ≤ i ∧ i < k + c ∧ candle.openTime = db.session.timeAt i := by
  have hlen : db.candles.length = n := by
    have := congrArg List.length htimes
    rwa [List.length_map, Session.times, length_grid] at this
  have hc : c ≠ 0 := by
    rintro rfl
    exact hne (by rw [hslice, List.take_zero])
  constructor
  · -- The last of the slice is the candle before place `k + c`.
    have hget : candles.getLast hne = db.candles[k + c - 1] := by
      rw [List.getLast_eq_getElem]
      simp only [hslice, List.getElem_take, List.getElem_drop, List.length_take, List.length_drop]
      congr 1
      omega
    rw [hget, getElem_of_grid htimes, Session.timeAt]
  · intro candle hmem
    obtain ⟨i, hi, rfl⟩ := List.getElem_of_mem hmem
    have hi' : i < c := by
      rw [hslice, List.length_take] at hi
      omega
    refine ⟨k + i, by omega, by omega, ?_⟩
    simp only [hslice, List.getElem_take, List.getElem_drop]
    rw [getElem_of_grid htimes, Session.timeAt]

section

variable {request : StepRequest} {candles : {l : List Candle // l ≠ []}}

theorem Session.timeAt_lt (s : Session) {i j : ℕ} (h : i < j) : s.timeAt i < s.timeAt j :=
  lt_of_le_of_ne (s.timeAt_le.2 h.le) (mt s.timeAt_inj.1 h.ne)

/-- A step passes its candles. -/
theorem Passed.advance (h : Passed db n k) (hb : batch db request.steps = .ok candles)
    (hsession : db'.session = (advanced request db.session candles).session)
    (hsnapshot : db'.snapshot = db.ensuredSnapshot) :
    ∃ c, 0 < c ∧ k + c ≤ n ∧ candles.1 = (db.candles.drop k).take c ∧
      db'.candles = db.candles ∧ Passed db' n (k + c) ∧
      ((advanced request db.session candles).completed = true ↔ k + c = n) := by
  obtain ⟨hk, htimes, hslice⟩ := h.slice request.one_le_steps hb
  have hsteps := request.one_le_steps
  have hlen : db.candles.length = n := by
    have := congrArg List.length htimes
    rwa [List.length_map, Session.times, length_grid] at this
  set c := min request.steps (n - k) with hc
  have hrows : db.ensuredSnapshot.rows ≠ [] := fun hnil => by
    rw [Db.candles, hnil, List.length_nil] at hlen
    omega
  have hcandles : db'.candles = db.candles := by
    rw [Db.candles, Db.ensuredSnapshot, hsnapshot, if_neg hrows, Db.candles]
  -- the cursor is at the last of the candles
  have hlast : (candles.1.getLast candles.2).openTime = db.session.timeAt (k + c - 1) :=
    (times_of_slice candles.2 htimes (by omega) hslice).1
  have hstart : db'.session.startTime = db.session.startTime := by rw [hsession]; rfl
  have hframe : db'.session.timeframe = db.session.timeframe := by rw [hsession]; rfl
  have htime : ∀ i, db'.session.timeAt i = db.session.timeAt i := fun i => by
    rw [Session.timeAt, Session.timeAt, hframe, hstart]
  have htimes' : db'.session.times n = db.session.times n := by
    rw [Session.times, Session.times, hframe, hstart]
  have hnext : db'.session.nextTime = db.session.timeAt (k + c) := by
    have hcursor : db'.session.cursorTime = some (db.session.timeAt (k + c - 1)) := by
      rw [hsession, ← hlast]
      rfl
    rw [Session.nextTime, hcursor, hframe]
    simp only [Session.timeAt]
    rw [Nat.cast_sub (by omega)]
    push_cast
    ring
  refine ⟨c, by omega, by omega, hslice, hcandles, ⟨by omega, h.pos, ?_, ?_, ?_, ?_, ?_⟩, ?_⟩
  · rw [htime, ← h.last, hsession]
    rfl
  · rw [htime, hnext]
  · rw [htimes', hcandles]
    exact h.covers
  · exact fun _ => hsnapshot ▸ hrows
  · exact fun _ => by rw [htimes', hcandles, htimes]
  · have hspan : (db.session.endTime - (candles.1.getLast candles.2).openTime) /
        db.session.timeframe.intervalMs = (n - 1 - (k + c - 1) : ℕ) := by
      have := db.session.span_timeAt (show k + c - 1 ≤ n - 1 by omega)
      rw [Session.span] at this
      rw [hlast, h.last]
      omega
    simp only [advanced, hspan]
    split <;> simp <;> omega

end

/-! ## The start of a session -/

theorem CandleTable.covers_upsert {t : CandleTable} {s : Session} (c : Candle)
    (h : (t.between s.startTime s.endTime).Covers s) :
    ((t.upsert c).between s.startTime s.endTime).Covers s := by
  intro time htime
  obtain ⟨a, ha, rfl⟩ := List.mem_map.1 (h htime)
  obtain ⟨ha, hrange⟩ := List.mem_filter.1 ha
  rcases lt_trichotomy a.openTime c.openTime with hlt | heq | hgt
  · exact List.mem_map.2 ⟨a, List.mem_filter.2 ⟨List.mem_append_left _
      (List.mem_filter.2 ⟨ha, by simpa using hlt⟩), hrange⟩, rfl⟩
  · -- the candle at this time is the new one
    exact List.mem_map.2 ⟨c, List.mem_filter.2 ⟨List.mem_append_right _ List.mem_cons_self,
      heq ▸ hrange⟩, heq.symm⟩
  · exact List.mem_map.2 ⟨a, List.mem_filter.2 ⟨List.mem_append_right _ (List.mem_cons_of_mem _
      (List.mem_filter.2 ⟨ha, by simpa using hgt⟩)), hrange⟩, rfl⟩

theorem CandleTable.upsertReplayCandle_eq_ok {t t' : CandleTable} {c : Candle}
    (h : t.upsertReplayCandle c = .ok t') : ∃ c', t' = t.upsert c' := by
  obtain ⟨c', -, rfl⟩ := map_eq_ok.1 h
  exact ⟨c', rfl⟩

/-- What the collector writes does not change frozen candles. -/
theorem Db.candles_collect {source : CandleTable} (h : db.snapshot.rows ≠ []) :
    { db with source := source }.candles = db.candles := by
  rw [candles, candles, ensuredSnapshot, ensuredSnapshot, if_neg h, if_neg h]

/-- The collector takes no candle away. -/
theorem Passed.collect (h : Passed db n k) {candle : Candle} {source : CandleTable}
    (hu : db.source.upsertReplayCandle candle = .ok source) :
    Passed { db with source := source } n k := by
  by_cases hrows : db.snapshot.rows = []
  · have hk : k = 0 := by
      by_contra hk
      exact h.frozen hk hrows
    subst hk
    obtain ⟨c, rfl⟩ := CandleTable.upsertReplayCandle_eq_ok hu
    refine ⟨h.le, h.pos, h.last, h.next, ?_, absurd rfl, absurd rfl⟩
    have hcovers : (db.source.between db.session.startTime db.session.endTime).Covers db.session := by
      have := h.covers
      rw [Db.candles, Db.ensuredSnapshot, if_pos hrows] at this
      rwa [CandleTable.Covers, h.span]
    have := CandleTable.covers_upsert c hcovers
    rw [CandleTable.Covers, h.span] at this
    rw [Db.candles, Db.ensuredSnapshot, if_pos hrows]
    exact this
  · exact ⟨h.le, h.pos, h.last, h.next, Db.candles_collect hrows ▸ h.covers, fun _ => hrows,
      fun hk => Db.candles_collect hrows ▸ h.times hk⟩

/-- A session as it is started, with or without its frozen candles. -/
structure Fresh (db : Db) (n : ℕ) : Prop where
  passed : Passed db n 0
  status : db.session.status = .ready
  cursor : db.session.cursorTime = none
  balance : db.session.balance = db.session.initialBalance
  equity : db.session.equity = db.session.initialBalance
  summary : db.session.summary = .empty
  requests : db.requests = ∅
  trades : db.trades = []
  events : ∃ count, db.events = [.sessionCreated count]

/-- The aligned range is on the grid. -/
theorem normalizeSyncRequest_eq_ok {timeframe : Timeframe} {requestedStart requestedEnd now : ℤ}
    {range : ℤ × ℤ}
    (h : normalizeSyncRequest timeframe requestedStart requestedEnd now = .ok range) :
    range.1 ≤ range.2 ∧ timeframe.intervalMs ∣ range.2 - range.1 := by
  simp only [normalizeSyncRequest, bind_eq_ok, pure_eq_ok, require_eq_ok] at h
  obtain ⟨-, -, -, -, -, -, -, hle, -, -, rfl⟩ := h
  have hend : timeframe.intervalMs ∣ min (requestedEnd / timeframe.intervalMs * timeframe.intervalMs)
      (now / timeframe.intervalMs * timeframe.intervalMs - timeframe.intervalMs) := by
    rcases min_choice (requestedEnd / timeframe.intervalMs * timeframe.intervalMs)
      (now / timeframe.intervalMs * timeframe.intervalMs - timeframe.intervalMs) with hm | hm
    · rw [hm]
      exact dvd_mul_left _ _
    · rw [hm]
      exact dvd_sub (dvd_mul_left _ _) dvd_rfl
  exact ⟨hle, dvd_sub hend (dvd_mul_left _ _)⟩

/-- A session that starts is fresh. -/
theorem startSession_fresh {request : StartRequest} {now : ℤ} {source : CandleTable}
    (h : startSession request now source = .ok db) : ∃ n, Fresh db n := by
  simp only [startSession, bind_eq_ok, pure_eq_ok, require_eq_ok] at h
  obtain ⟨_, -, ⟨first, last⟩, hrange, balance, -, -, hspan, -, hcovers, rfl⟩ := h
  obtain ⟨hle, hdvd⟩ := normalizeSyncRequest_eq_ok hrange
  dsimp only at hspan hcovers hle hdvd ⊢
  obtain ⟨m, hm⟩ := hdvd
  have hpos := request.timeframe.intervalMs_pos
  have hspan : (last - first) / request.timeframe.intervalMs + 1 = m + 1 := by
    rw [hm, Int.mul_ediv_cancel_left _ hpos.ne']
  have hm0 : 0 ≤ m := by
    by_contra h
    nlinarith
  obtain ⟨m, rfl⟩ := Int.eq_ofNat_of_zero_le hm0
  have hlast : last = first + m * request.timeframe.intervalMs := by linarith
  refine ⟨m + 1, ⟨⟨Nat.zero_le _, Nat.succ_pos _, hlast, ?_, ?_, absurd rfl, absurd rfl⟩, rfl, rfl,
    rfl, rfl, rfl, rfl, rfl, _, rfl⟩⟩
  · simp [Session.nextTime, Session.timeAt]
  · -- whether or not there is a snapshot already, it is the one of these candles
    intro time htime
    have hmem := htime
    simp only [Session.times] at htime
    obtain ⟨i, hi, rfl⟩ := List.mem_map.1 htime
    have hi : (i : ℤ) ≤ m := by exact_mod_cast Nat.lt_succ_iff.1 (List.mem_range.1 hi)
    obtain ⟨c, hc, hct⟩ := List.mem_map.1 (hcovers (a := first + i * request.timeframe.intervalMs)
      (by simpa [Session.span, hspan, Session.times] using hmem))
    have hin : c ∈ (source.between first last).rows := by
      refine List.mem_filter.2 ⟨hc, ?_⟩
      rw [decide_eq_true_iff, hct]
      constructor <;> nlinarith
    refine List.mem_map.2 ⟨c, ?_, hct⟩
    rw [Db.candles, Db.ensuredSnapshot]
    split <;> exact hin

end IntradayBot.Replay
