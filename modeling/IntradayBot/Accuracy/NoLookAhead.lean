import IntradayBot.Accuracy.Replay

/-!
# No look-ahead

Two replays whose candles agree up to a time decide the same up to that time: they skip the same
candles, and have the same votes, decisions, sides and entries (`no_look_ahead`).

What becomes of a trade depends on later candles, and decides which candles are skipped. But
whether a candle is skipped only depends on whether the trade was still open before it
(`le_blockedBy_iff`), and hence on candles that are closed when the candle itself is.
-/

namespace IntradayBot.Accuracy

/-! ## Closed candles -/

section closed

variable {time decisionTime : ℤ} {interval : Interval}

/-- In a sorted list, what is before a bound comes first. -/
theorem filter_start {α κ : Type} [LinearOrder κ] {key : α → κ} {l : List α}
    (hl : SortedBy key l) (p : α → Bool) (hp : ∀ a b, key a ≤ key b → p b → p a) :
    l.filter p <+: l ∧ ∀ i a, l[i]? = some a → (p a ↔ i < (l.filter p).length) := by
  induction l with
  | nil => simp
  | cons a l ih =>
    obtain ⟨ha, hl⟩ := List.pairwise_cons.1 hl
    by_cases hpa : p a
    · obtain ⟨hstart, hindex⟩ := ih hl
      rw [List.filter_cons_of_pos hpa]
      refine ⟨List.cons_prefix_cons.2 ⟨rfl, hstart⟩, ?_⟩
      rintro (_ | i) b hb
      · obtain rfl : a = b := by simpa using hb
        simpa using hpa
      · rw [hindex i b (by simpa using hb)]
        simp
    · have hnone : ∀ b ∈ a :: l, ¬p b := by
        intro b hb hpb
        rcases List.mem_cons.1 hb with rfl | hb
        · exact hpa hpb
        · exact hpa (hp a b (ha b hb) hpb)
      rw [List.filter_eq_nil_iff.2 hnone]
      refine ⟨List.nil_prefix, fun i b hb => ?_⟩
      simpa using hnone b (List.mem_of_getElem? hb)

theorem closedBars_eq_filter (candles : List Bar) (time : ℤ) (interval : Interval) :
    closedBars candles time interval =
      (sortBy Bar.time candles).filter fun bar => ClosedBy interval time bar :=
  (filter_sortBy ..).symm

/-- What is closed earlier is among what is closed later. -/
theorem closedBars_of_le (candles : List Bar) (h : decisionTime ≤ time) :
    closedBars candles decisionTime interval =
      (closedBars candles time interval).filter fun bar => ClosedBy interval decisionTime bar := by
  rw [closedBars_eq_filter, closedBars_eq_filter, List.filter_filter]
  refine List.filter_congr fun bar _ => ?_
  simp only [← Bool.decide_and, decide_eq_decide]
  exact ⟨fun hd => ⟨hd, hd.trans h⟩, fun hd => hd.1⟩

theorem closedAt_congr {a b : List Bar} (h : decisionTime ≤ time)
    (hab : closedBars a time interval = closedBars b time interval) (limit : ℕ) :
    closedAt a decisionTime interval limit = closedAt b decisionTime interval limit := by
  rw [closedAt, closedAt, closedBars_of_le a h, closedBars_of_le b h, hab]

/-- The number of the entry candles that are closed. -/
abbrev closedCount (h : Histories) (time : ℤ) (interval : Interval) : ℕ :=
  (closedBars h.entryTf time interval).length

theorem closedBars_start (h : Histories) (time : ℤ) (interval : Interval) :
    closedBars h.entryTf time interval <+: h.entries ∧
      ∀ index bar, h.entries[index]? = some bar →
        (ClosedBy interval time bar ↔ index < closedCount h time interval) := by
  have hstart := filter_start (sortedBy_sortBy Bar.time h.entryTf)
    (fun bar => decide (ClosedBy interval time bar)) (by
      intro a b hab hb
      simp only [ClosedBy, decide_eq_true_eq] at hb ⊢
      omega)
  rw [← closedBars_eq_filter] at hstart
  simp only [decide_eq_true_eq] at hstart
  exact hstart

end closed

/-! ## Trades -/

section trades

variable {o : Opening} {time : ℤ}

/-- The candle ends the trade. -/
def Opening.Hit (o : Opening) (bar : Bar) : Prop := o.hitStop bar = true ∨ o.hitTarget bar = true

/-- The trade ends at the first candle that hits. -/
theorem firstHit_cases (o : Opening) (index : ℕ) (future : List Bar) :
    (o.firstHit index future = none ∧ ∀ bar ∈ future, ¬o.Hit bar) ∨
      ∃ before bar after, future = before ++ bar :: after ∧ (∀ b ∈ before, ¬o.Hit b) ∧ o.Hit bar ∧
        ∃ outcome exit, o.firstHit index future = some (outcome, index + before.length, exit) := by
  induction future generalizing index with
  | nil => exact .inl ⟨rfl, by simp⟩
  | cons bar future ih =>
    by_cases hhit : o.Hit bar
    · refine .inr ⟨[], bar, future, rfl, by simp, hhit, ?_⟩
      rw [Opening.firstHit]
      split_ifs with hboth htarget hstop
      · exact ⟨_, _, rfl⟩
      · exact ⟨_, _, rfl⟩
      · exact ⟨_, _, rfl⟩
      · exact absurd hhit (by simp [Opening.Hit, hstop, htarget])
    · -- A bar that hits nothing only moves the index on.
      have hskip : o.firstHit index (bar :: future) = o.firstHit (index + 1) future := by
        rw [Opening.Hit, not_or] at hhit
        rw [Opening.firstHit, if_neg (fun h => hhit.1 h.1), if_neg hhit.2, if_neg hhit.1]
      rw [hskip]
      rcases ih (index + 1) with ⟨hnone, hall⟩ | ⟨before, b, after, rfl, hbefore, hb, outcome, exit, h⟩
      · exact .inl ⟨hnone, List.forall_mem_cons.2 ⟨hhit, hall⟩⟩
      · refine .inr ⟨bar :: before, b, after, rfl, List.forall_mem_cons.2 ⟨hhit, hbefore⟩, hb,
          outcome, exit, ?_⟩
        rw [h, List.length_cons]
        congr 3
        omega

/-- A trade is held for more than `j` candles just if none of the first `j` ends it, and there
    are more. -/
theorem lt_barsHeld_iff (o : Opening) (future : List Bar) (j : ℕ) :
    j < (estimateTradeOutcome o future).2.1 ↔
      j < future.length ∧ ∀ bar ∈ future.take j, ¬o.Hit bar := by
  rw [estimateTradeOutcome]
  rcases hlast : future.getLast? with _ | last
  · rw [List.getLast?_eq_none_iff] at hlast
    simp [hlast]
  · simp only
    rcases firstHit_cases o 1 future with
      ⟨hnone, hall⟩ | ⟨before, b, after, rfl, hbefore, hb, outcome, exit, h⟩
    · simp only [hnone]
      exact ⟨fun hj => ⟨hj, fun bar hbar => hall bar (List.mem_of_mem_take hbar)⟩, fun h => h.1⟩
    · simp only [h]
      constructor
      · intro hj
        rw [List.take_append_of_le_length (by omega)]
        refine ⟨by simp; omega, fun bar hbar => hbefore bar (List.mem_of_mem_take hbar)⟩
      · rintro ⟨_, hall⟩
        by_contra hj
        refine hall b ?_ hb
        rw [List.mem_take_iff_getElem]
        exact ⟨before.length, by simp; omega, by simp⟩

end trades

/-! ## Two replays -/

/-- The candles agree on what is closed at the time, and there are as many to enter at. -/
structure Agree (r : Request) (time : ℤ) (a b : Histories) : Prop where
  length : a.entryTf.length = b.entryTf.length
  entryTf : closedBars a.entryTf time r.interval = closedBars b.entryTf time r.interval
  tf15 : closedBars a.tf15 time .fifteen = closedBars b.tf15 time .fifteen
  tf1h : closedBars a.tf1h time .sixty = closedBars b.tf1h time .sixty

section agree

variable {e : Engines} {r : Request} {time : ℤ} {a b : Histories}

theorem length_entries (h : Histories) : h.entries.length = h.entryTf.length :=
  (sortBy_perm ..).length_eq

namespace Agree

variable (hab : Agree r time a b)

include hab

theorem closedCount_eq : closedCount a time r.interval = closedCount b time r.interval :=
  congrArg List.length hab.entryTf

theorem length_entries_eq : a.entries.length = b.entries.length := by
  rw [length_entries, length_entries, hab.length]

theorem take_eq : a.entries.take (closedCount a time r.interval) =
    b.entries.take (closedCount a time r.interval) := by
  have ha := List.prefix_iff_eq_take.1 (closedBars_start a time r.interval).1
  have hb := List.prefix_iff_eq_take.1 (closedBars_start b time r.interval).1
  rw [← ha, hab.closedCount_eq, ← hb, hab.entryTf]

theorem getElem?_eq {index : ℕ} (h : index < closedCount a time r.interval) :
    a.entries[index]? = b.entries[index]? := by
  rw [← List.getElem?_take_of_lt h, hab.take_eq, List.getElem?_take_of_lt h]

theorem votesAt_eq {decisionTime : ℤ} (h : decisionTime ≤ time) :
    votesAt e r a decisionTime = votesAt e r b decisionTime := by
  simp only [votesAt, closedAt_congr h hab.entryTf, closedAt_congr h hab.tf15,
    closedAt_congr h hab.tf1h]

/-- The closed candles among those that follow a decision. -/
theorem future_eq {index j : ℕ} (h : index + 1 + j ≤ closedCount a time r.interval) :
    ((a.entries.drop (index + 1)).take r.lookahead).take j =
      ((b.entries.drop (index + 1)).take r.lookahead).take j := by
  have htake : a.entries.take (index + 1 + min j r.lookahead) =
      b.entries.take (index + 1 + min j r.lookahead) := by
    have hle : index + 1 + min j r.lookahead ≤ closedCount a time r.interval := by omega
    rw [← Nat.min_eq_left hle, ← List.take_take, hab.take_eq, List.take_take]
  rw [List.take_take, List.take_take, List.take_drop, List.take_drop, htake]

/-- A closed candle is skipped for a trade in both replays, or in none. -/
theorem le_blockedBy_iff {index k : ℕ} (o : Opening) (hk : index < k)
    (hclosed : k < closedCount a time r.interval) :
    k ≤ blockedBy r a index o ↔ k ≤ blockedBy r b index o := by
  have hlength : ((a.entries.drop (index + 1)).take r.lookahead).length =
      ((b.entries.drop (index + 1)).take r.lookahead).length := by
    simp only [List.length_take, List.length_drop, hab.length_entries_eq]
  -- the trade is still open before `k` just if no candle before `k` ends it
  have hheld : k - index - 1 < (outcomeAt r a index o).2.1 ↔
      k - index - 1 < (outcomeAt r b index o).2.1 := by
    rw [outcomeAt, outcomeAt, lt_barsHeld_iff, lt_barsHeld_iff, hlength,
      hab.future_eq (by omega)]
  rw [blockedBy, blockedBy]
  omega

end Agree

/-! ### What is known of a record -/

/-- What the loop does at a candle, but for what becomes of its trade: of that, the side and
    the entry. -/
inductive Known
  | blocked
  | short
  | decided (votes : List Vote) (router : Router) (trade : Option (Signal × ℚ))
  | raised (votes : List Vote) (router : Router)
  deriving DecidableEq

def Seen.known : Seen → Known
  | .blocked => .blocked
  | .short => .short
  | .decided votes router trade =>
    .decided votes router (trade.map fun t => (t.side, t.entry))
  | .raised votes router => .raised votes router

/-- A record, up to what is known when it is made. -/
def Record.known (record : Record) : ℕ × ℤ × Known :=
  (record.index, record.decisionTime, record.seen.known)

/-- What is known of the records up to the time. -/
def knownBy (time : ℤ) (l : List Record) : List (ℕ × ℤ × Known) :=
  (l.filter fun record => record.decisionTime ≤ time).map Record.known

/-- The decision of the record is to trade. -/
def Record.Trades (record : Record) : Prop :=
  record.signal? = some .buy ∨ record.signal? = some .sell

instance (record : Record) : Decidable record.Trades := inferInstanceAs (Decidable (_ ∨ _))

/-- The price at which a decision at `index` trades. -/
def Histories.openAfter (h : Histories) (index : ℕ) : Option ℚ :=
  h.entries[index + 1]?.map Bar.openPrice

@[simp] theorem knownBy_nil : knownBy time [] = [] := by simp [knownBy]

theorem knownBy_cons (record : Record) (l : List Record) :
    knownBy time (record :: l) =
      if record.decisionTime ≤ time then record.known :: knownBy time l else knownBy time l := by
  rw [knownBy, List.filter_cons]
  simp only [decide_eq_true_eq]
  split <;> rfl

theorem visit_record {h : Histories} {index blockedUntil : ℕ} {record : Record} {next : Option ℕ}
    (hvisit : visit e r h index blockedUntil = some (record, next)) :
    record.index = index ∧ ∃ signalCandle, h.entries[index]? = some signalCandle ∧
      record.decisionTime = signalCandle.time + r.interval.ms := by
  rw [visit] at hvisit
  split at hvisit
  · rename_i signalCandle entryCandle hsignal _
    have hrecord : ∃ seen, record = ⟨index, signalCandle.time + r.interval.ms, seen⟩ := by
      simp only at hvisit
      split at hvisit
      · exact ⟨_, (Prod.mk.inj (Option.some.inj hvisit)).1.symm⟩
      · split at hvisit
        · exact ⟨_, (Prod.mk.inj (Option.some.inj hvisit)).1.symm⟩
        · split_ifs at hvisit <;> exact ⟨_, (Prod.mk.inj (Option.some.inj hvisit)).1.symm⟩
    obtain ⟨seen, rfl⟩ := hrecord
    exact ⟨rfl, signalCandle, hsignal, rfl⟩
  · simp at hvisit

/-- A candle that is not closed is decided later. -/
theorem visit_late {h : Histories} {index blockedUntil : ℕ} {record : Record} {next : Option ℕ}
    (hindex : closedCount h time r.interval ≤ index)
    (hvisit : visit e r h index blockedUntil = some (record, next)) :
    ¬record.decisionTime ≤ time := by
  obtain ⟨_, signalCandle, hsignal, htime⟩ := visit_record hvisit
  rw [htime]
  intro hle
  have := ((closedBars_start h time r.interval).2 index signalCandle hsignal).1 hle
  omega

theorem knownBy_late {h : Histories} {l : List ℕ} (blockedUntil : ℕ)
    (hl : ∀ index ∈ l, closedCount h time r.interval ≤ index) :
    knownBy time (loop e r h l blockedUntil) = [] := by
  induction l generalizing blockedUntil with
  | nil => exact knownBy_nil
  | cons index l ih =>
    obtain ⟨hindex, hl⟩ := List.forall_mem_cons.1 hl
    rw [loop]
    split
    · exact knownBy_nil
    · rename_i record hvisit
      rw [knownBy_cons, if_neg (visit_late hindex hvisit), knownBy_nil]
    · rename_i record next hvisit
      rw [knownBy_cons, if_neg (visit_late hindex hvisit), ih next hl]

namespace Agree

/-- What the two loops do at a candle that is closed: the same, up to what becomes of a trade. -/
theorem visit_eq (hab : Agree r time a b) {index blockedA blockedB : ℕ}
    (hclosed : index < closedCount a time r.interval)
    (hskip : index ≤ blockedA ↔ index ≤ blockedB)
    (hopen : ∀ record next, visit e r a index blockedA = some (record, next) → record.Trades →
      a.openAfter index = b.openAfter index) :
    visit e r a index blockedA = none ∧ visit e r b index blockedB = none ∨
      ∃ recordA nextA recordB nextB, visit e r a index blockedA = some (recordA, nextA) ∧
        visit e r b index blockedB = some (recordB, nextB) ∧
        recordA.known = recordB.known ∧ recordA.decisionTime ≤ time ∧
        (nextA = none ∧ nextB = none ∨ nextA = some blockedA ∧ nextB = some blockedB ∨
          ∃ o, nextA = some (blockedBy r a index o) ∧ nextB = some (blockedBy r b index o)) := by
  have hsignal := hab.getElem?_eq hclosed
  have hnext : a.entries[index + 1]? = none ↔ b.entries[index + 1]? = none := by
    rw [List.getElem?_eq_none_iff, List.getElem?_eq_none_iff, hab.length_entries_eq]
  rw [visit] at hopen ⊢
  rw [visit, ← hsignal]
  rcases ha : a.entries[index]? with _ | signalCandle
  · exact .inl ⟨rfl, rfl⟩
  rcases hea : a.entries[index + 1]? with _ | entryA
  · rcases heb : b.entries[index + 1]? with _ | entryB
    · exact .inl ⟨rfl, rfl⟩
    · simp [hea, heb] at hnext
  rcases heb : b.entries[index + 1]? with _ | entryB
  · simp [hea, heb] at hnext
  have htime : signalCandle.time + r.interval.ms ≤ time :=
    ((closedBars_start a time r.interval).2 index signalCandle ha).2 hclosed
  simp only [ha, hea] at hopen ⊢
  refine .inr ?_
  rw [← hab.votesAt_eq htime]
  -- The two visits take the same branch throughout; only the bars after `time` may differ, and
  -- they decide nothing but where an opened trade ends.
  by_cases hblocked : index ≤ blockedA
  · rw [if_pos hblocked, if_pos (hskip.1 hblocked)]
    exact ⟨_, _, _, _, rfl, rfl, rfl, htime, .inr (.inl ⟨rfl, rfl⟩)⟩
  · rw [if_neg hblocked] at hopen ⊢
    rw [if_neg fun h => hblocked (hskip.2 h)]
    rcases hvotes : votesAt e r a (signalCandle.time + r.interval.ms) with _ | votes
    · exact ⟨_, _, _, _, rfl, rfl, rfl, htime, .inr (.inl ⟨rfl, rfl⟩)⟩
    · simp only [hvotes] at hopen ⊢
      by_cases hwait : (e.routeVotes votes r.mode).decision = .wait
      · simp only [hwait, ↓reduceIte]
        exact ⟨_, _, _, _, rfl, rfl, rfl, htime, .inr (.inl ⟨rfl, rfl⟩)⟩
      · rw [if_neg hwait] at hopen ⊢
        rw [if_neg hwait]
        have htrades : (e.routeVotes votes r.mode).decision = .buy ∨
            (e.routeVotes votes r.mode).decision = .sell := by
          rcases hd : (e.routeVotes votes r.mode).decision with _ | _ | _
          · exact .inl rfl
          · exact .inr rfl
          · exact absurd hd hwait
        have hprice : entryA.openPrice = entryB.openPrice := by
          have hsame : a.openAfter index = b.openAfter index := by
            by_cases hzero : entryA.openPrice = 0
            · exact hopen _ _ (if_pos hzero) (htrades.imp (congrArg some) (congrArg some))
            · exact hopen _ _ (if_neg hzero) (htrades.imp (congrArg some) (congrArg some))
          simpa [Histories.openAfter, hea, heb] using hsame
        by_cases hzero : entryA.openPrice = 0
        · rw [if_pos hzero, if_pos (hprice ▸ hzero)]
          exact ⟨_, _, _, _, rfl, rfl, rfl, htime, .inl ⟨rfl, rfl⟩⟩
        · rw [if_neg hzero, if_neg (hprice ▸ hzero)]
          have ho : openingOf r (e.routeVotes votes r.mode).decision entryA =
              openingOf r (e.routeVotes votes r.mode).decision entryB := by
            rw [openingOf, openingOf, hprice]
          refine ⟨_, _, _, _, rfl, rfl, ?_, htime, .inr (.inr ⟨_, rfl, by rw [ho]⟩)⟩
          simp [Record.known, Seen.known, tradeOf, ho]

/-- The two loops, from an index on: where the candles that are closed are skipped in both or in
    none, what is known by the time is the same. -/
theorem loop_eq (hab : Agree r time a b) {l : List ℕ} (hl : l.Pairwise (· < ·))
    {blockedA blockedB : ℕ}
    (hblocked : ∀ k ∈ l, k < closedCount a time r.interval → (k ≤ blockedA ↔ k ≤ blockedB))
    (hopen : ∀ record ∈ loop e r a l blockedA, record.decisionTime ≤ time → record.Trades →
      a.openAfter record.index = b.openAfter record.index) :
    knownBy time (loop e r a l blockedA) = knownBy time (loop e r b l blockedB) := by
  induction l generalizing blockedA blockedB with
  | nil => rfl
  | cons index l ih =>
    by_cases hclosed : index < closedCount a time r.interval
    · obtain ⟨hindex, hl⟩ := List.pairwise_cons.1 hl
      have hrest : ∀ k ∈ l, k < closedCount a time r.interval → (k ≤ blockedA ↔ k ≤ blockedB) :=
        fun k hk => hblocked k (List.mem_cons_of_mem _ hk)
      have hprice : ∀ record next, visit e r a index blockedA = some (record, next) →
          record.Trades → a.openAfter index = b.openAfter index := by
        intro record next hvisit htrades
        obtain ⟨hat, signalCandle, hsignal, htime⟩ := visit_record hvisit
        rw [← hat]
        refine hopen record ?_ ?_ htrades
        · rw [loop, hvisit]
          cases next <;> simp
        · rw [htime]
          exact ((closedBars_start a time r.interval).2 index signalCandle hsignal).2 hclosed
      rw [loop] at hopen ⊢
      rw [loop]
      rcases hab.visit_eq hclosed (hblocked index (by simp) hclosed) hprice with
        ⟨ha, hb⟩ | ⟨recordA, nextA, recordB, nextB, ha, hb, hknown, htime, hnext⟩
      · rw [ha, hb]
      · have htimeB : recordB.decisionTime ≤ time := by
          have hsame : recordA.decisionTime = recordB.decisionTime :=
            congrArg (fun known => known.2.1) hknown
          exact hsame ▸ htime
        rw [ha] at hopen ⊢
        rw [hb]
        rcases hnext with ⟨rfl, rfl⟩ | ⟨rfl, rfl⟩ | ⟨o, rfl, rfl⟩
        · simp only
          rw [knownBy_cons, knownBy_cons, if_pos htime, if_pos htimeB, hknown, knownBy_nil]
        · simp only at hopen ⊢
          rw [knownBy_cons, knownBy_cons, if_pos htime, if_pos htimeB, hknown,
            ih hl hrest fun record h => hopen record (List.mem_cons_of_mem _ h)]
        · simp only at hopen ⊢
          rw [knownBy_cons, knownBy_cons, if_pos htime, if_pos htimeB, hknown]
          congr 1
          refine ih hl (fun k hk hc => ?_) fun record h => hopen record (List.mem_cons_of_mem _ h)
          exact hab.le_blockedBy_iff o (hindex k hk) hc
    · -- no candle is closed from here on
      have hlate : ∀ k ∈ index :: l, closedCount a time r.interval ≤ k := by
        rw [List.forall_mem_cons]
        have hindex := (List.pairwise_cons.1 hl).1
        exact ⟨by omega, fun k hk => by have := hindex k hk; omega⟩
      rw [knownBy_late blockedA hlate, knownBy_late blockedB (hab.closedCount_eq ▸ hlate)]

end Agree

theorem step_pos (r : Request) : 0 < r.step := by
  rw [Request.step]
  split <;> decide

/-- Two replays whose candles agree on what is closed at a time, and on the price at which each
    decision up to then trades, are the same up to that time: they skip the same candles, and
    have the same votes, decisions, sides and entries. -/
theorem no_look_ahead (e : Engines) (r : Request) (time : ℤ) (a b : Histories)
    (hab : Agree r time a b)
    (hopen : ∀ record ∈ records e r a, record.decisionTime ≤ time → record.Trades →
      a.openAfter record.index = b.openAfter record.index) :
    knownBy time (records e r a) = knownBy time (records e r b) := by
  have hindices : indices r a = indices r b := by
    rw [indices, indices, hab.length]
  rw [records, records, ← hindices]
  refine hab.loop_eq ?_ (fun k _ _ => Iff.rfl) hopen
  exact List.pairwise_lt_range' _ (step_pos r)

/-- Strategies that always vote to buy. -/
def exampleEngines : Engines :=
  let strategy : Strategy := fun _ _ _ => vote "Trend Follow" .buy "fixture" 5
  { trendFollowing := strategy
    srBreakout := strategy
    rsiDivergence := strategy
    vwapBounce := strategy
    liquiditySweep := strategy
    routeVotes := fun votes mode => ⟨.buy, votes.length, 1, mode, "fixture"⟩ }

def exampleRequest : Request where
  symbol := "BTCUSDT"
  week := false
  mode := "balanced"
  stopLossPct := 4 / 5
  takeProfitPct := 2

/-- Candles of one price, from a time on. -/
def flatBars (interval : Interval) (start : ℤ) (count : ℕ) (price : ℚ) : List Bar :=
  (List.range count).map fun i => ⟨start + i * interval.ms, price, price + 1, price - 1, price, 100⟩

/-- The price is 100, and another one after the first decision. -/
def exampleHistories (price : ℚ) : Histories where
  entryTf := flatBars .five 0 82 100 ++ flatBars .five (82 * 300000) 30 price
  tf15 := flatBars .fifteen (-54000000) 120 100
  tf1h := flatBars .sixty (-216000000) 120 100

/-- A rise and a fall after the first decision leave it alone. -/
theorem no_look_ahead_first : knownBy 24300000
      (records exampleEngines exampleRequest (exampleHistories 110)) =
    knownBy 24300000 (records exampleEngines exampleRequest (exampleHistories 90)) :=
  no_look_ahead exampleEngines exampleRequest 24300000 (exampleHistories 110) (exampleHistories 90)
    ⟨rfl, by decide +kernel, rfl, rfl⟩ (by decide +kernel)

end agree

end IntradayBot.Accuracy
