import IntradayBot.Data.Play
import IntradayBot.Setup.Pipeline

/-!
# Candidates are queued once

The queue has each key once, but forgets the oldest candidates when it is full, and may then be
given a key that it had before. In a run whose clock does not go back, without forced builds, and
that loses no published state when the process restarts (`Steady`), no key is queued twice
(`nodup_queued`): a build queues keys of its own 5M candle only, and each candle has one build
that publishes.
-/

namespace IntradayBot.Setup

open Accuracy

/-! ## Keys -/

theorem toString_injective {m n : ℤ} (h : toString m = toString n) : m = n := by
  have hm := PyJson.value_toString m [] 0
  rw [h, PyJson.value_toString n [] 0] at hm
  simpa using hm.symm

theorem colon_notMem_toString (n : ℤ) : ':' ∉ (toString n).toList := by
  rcases PyJson.toString_toList n with ⟨m, -, htext⟩ | ⟨m, -, htext⟩
  · rw [htext]
    exact fun h => absurd (PyJson.isDigit_toDigits h) (by decide)
  · rw [htext]
    rintro (_ | ⟨_, h⟩)
    exact absurd (PyJson.isDigit_toDigits h) (by decide)

/-- A list has one part before its first separator. -/
theorem append_cons_inj {α : Type} {a : α} {l l' m m' : List α} (hl : a ∉ l) (hl' : a ∉ l')
    (h : l ++ a :: m = l' ++ a :: m') : l = l' ∧ m = m' := by
  induction l generalizing l' with
  | nil =>
    cases l' with
    | nil => exact ⟨rfl, (List.cons.inj h).2⟩
    | cons b l' => exact absurd ((List.cons.inj h).1 ▸ List.mem_cons_self) hl'
  | cons b l ih =>
    cases l' with
    | nil => exact absurd ((List.cons.inj h).1 ▸ List.mem_cons_self) hl
    | cons b' l' =>
      obtain ⟨rfl, hrest⟩ := List.cons.inj h
      obtain ⟨rfl, hm⟩ := ih (fun hmem => hl (List.mem_cons_of_mem _ hmem))
        (fun hmem => hl' (List.mem_cons_of_mem _ hmem)) hrest
      exact ⟨rfl, hm⟩

theorem toList_candidateKey (symbol : String) (setupTime entryTime : ℤ) (side : Signal)
    (strategy : String) : ∃ rest, (candidateKey symbol setupTime entryTime side strategy).toList =
      symbol.toList ++ ':' :: ((toString setupTime).toList ++ ':' ::
        ((toString entryTime).toList ++ ':' :: rest)) := by
  refine ⟨(signalText side).toList ++ ':' :: strategy.toList, ?_⟩
  simp only [candidateKey, String.toList_append, List.append_assoc]
  rfl

theorem PlainSymbol.colon_notMem {symbol : String} (h : PlainSymbol symbol) :
    ':' ∉ symbol.toList := fun hmem => absurd (h.2 ':' hmem) (by decide)

/-- A key has one symbol and one 5M candle. -/
theorem candidateKey_inj {symbol symbol' : String} {setupTime setupTime' entryTime entryTime' : ℤ}
    {side side' : Signal} {strategy strategy' : String} (hsymbol : PlainSymbol symbol)
    (hsymbol' : PlainSymbol symbol')
    (h : candidateKey symbol setupTime entryTime side strategy =
      candidateKey symbol' setupTime' entryTime' side' strategy') :
    symbol = symbol' ∧ entryTime = entryTime' := by
  obtain ⟨rest, hrest⟩ := toList_candidateKey symbol setupTime entryTime side strategy
  obtain ⟨rest', hrest'⟩ := toList_candidateKey symbol' setupTime' entryTime' side' strategy'
  have hlist := (hrest.symm.trans (congrArg String.toList h)).trans hrest'
  obtain ⟨hs, hlist⟩ := append_cons_inj hsymbol.colon_notMem hsymbol'.colon_notMem hlist
  obtain ⟨-, hlist⟩ := append_cons_inj (colon_notMem_toString _) (colon_notMem_toString _) hlist
  obtain ⟨hentry, -⟩ := append_cons_inj (colon_notMem_toString _) (colon_notMem_toString _) hlist
  exact ⟨String.toList_inj.1 hs, toString_injective (String.toList_inj.1 hentry)⟩

/-! ## One build -/

section

variable {limit : ℕ} {candles : String → Except String (List Accuracy.Bar)} {timestamp : ℤ}
  {classification : Stage Classification} {queue : List Candidate} {body : Body Entries}

/-- The rows of a classification have symbols of their own. -/
structure Apart (content : Classification) : Prop where
  plain : ∀ row ∈ content.rows, PlainSymbol row.symbol
  nodup : (content.rows.map (·.symbol)).Nodup

/-- The key is of a symbol and the 5M candle of a time. -/
def KeyAt (time : ℤ) (key : String) : Prop :=
  ∃ symbol setupTime side strategy, PlainSymbol symbol ∧
    key = candidateKey symbol setupTime time side strategy

theorem KeyAt.time_eq {time time' : ℤ} {key : String} (h : KeyAt time key) (h' : KeyAt time' key) :
    time = time' := by
  obtain ⟨symbol, setupTime, side, strategy, hsymbol, rfl⟩ := h
  obtain ⟨symbol', setupTime', side', strategy', hsymbol', hkey⟩ := h'
  exact (candidateKey_inj hsymbol hsymbol' hkey).2

/-- The key that a row is confirmed under. -/
theorem key_confirmSymbol {targetFive targetSetup : ℤ} {row : SetupRow} {entry : EntryRow}
    {candidate : Candidate} {rejection : Option EntryRejection} (hplain : PlainSymbol row.symbol)
    (h : confirmSymbol candles timestamp targetFive targetSetup row =
      .ok (entry, some candidate, rejection)) :
    ∃ side strategy, entry.candidateKey =
      some (candidateKey row.symbol targetSetup targetFive side strategy) := by
  obtain ⟨hkey, setup, bar, hby⟩ := confirmSymbol_eq_some h
  refine ⟨candidate.side, setup.strategy, hkey.trans (congrArg some ?_)⟩
  rw [hby.built, candidateOf, hplain.1]

/-- A build queues keys of its own 5M candle, each one once. -/
theorem queuedKeys_confirm (hrows : Apart classification.content)
    (h : confirm limit candles timestamp classification queue = .ok body) :
    body.candleTime = some (targetOpenMs .five timestamp) ∧
      (∀ key ∈ queuedKeys body.content.rows, KeyAt (targetOpenMs .five timestamp) key) ∧
      (queuedKeys body.content.rows).Nodup := by
  rw [confirm] at h
  dsimp only at h
  split at h
  · cases h
  split at h
  · cases h
  split at h
  · obtain rfl := pure_eq_ok.1 h
    exact ⟨rfl, by simp [queuedKeys], by simp [queuedKeys]⟩
  obtain ⟨⟨rows, queue'⟩, hall, h⟩ := bind_eq_ok.1 h
  obtain rfl := pure_eq_ok.1 h
  refine ⟨rfl, fun key hkey => ?_, nodup_queuedKeys hall ?_⟩
  · obtain ⟨row, hrow, entry, candidate, rejection, hconfirm, hentry⟩ := mem_queuedKeys hall hkey
    have hplain := hrows.plain row (List.mem_of_mem_filter hrow)
    obtain ⟨side, strategy, hsome⟩ := key_confirmSymbol hplain hconfirm
    exact ⟨row.symbol, _, side, strategy, hplain, Option.some.inj (hentry.symm.trans hsome)⟩
  · have hdistinct : (setupRows classification.content).Pairwise fun row later =>
        row.symbol ≠ later.symbol :=
      (List.pairwise_map.1 hrows.nodup).sublist List.filter_sublist
    refine hdistinct.imp_of_mem fun {row later} hrow hlater hne => ?_
    intro entry candidate rejection entry' candidate' rejection' hconfirm hconfirm' heq
    have hplain := hrows.plain row (List.mem_of_mem_filter hrow)
    have hplain' := hrows.plain later (List.mem_of_mem_filter hlater)
    obtain ⟨side, strategy, hsome⟩ := key_confirmSymbol hplain hconfirm
    obtain ⟨side', strategy', hsome'⟩ := key_confirmSymbol hplain' hconfirm'
    rw [hsome, hsome'] at heq
    exact hne (candidateKey_inj hplain hplain' (Option.some.inj heq)).1

end

/-! ## Runs -/

/-- The keys that a call queues. -/
def Scan.queuedBy (w : Scan) : Event → List String
  | .confirm timestamp force b =>
    if force ∨ w.five.due .five timestamp then
      match confirm (queueLimit b.limit) b.candles timestamp w.fifteen
        w.five.content.confirmedEntryQueue with
      | .ok body => queuedKeys body.content.rows
      | .error _ => []
    else []
  | .watch .. | .classify .. | .restart .. => []

/-- The stages, the time of the last confirmation and the keys that were queued so far. -/
structure Observed where
  clock : ℤ
  scan : Scan
  queued : List String

/-- The stages before anything was saved. -/
def Observed.initial (clock : ℤ) : Observed := ⟨clock, .initial, []⟩

/-- The time of a confirmation, or what was the time before. -/
def Event.clock (clock : ℤ) : Event → ℤ
  | .confirm timestamp _ _ => timestamp
  | .watch .. | .classify .. | .restart .. => clock

/-- One call. -/
def Observed.play (log1p : ℚ → ℚ) (o : Observed) (e : Event) : Option Observed :=
  some ⟨e.clock o.clock, o.scan.play log1p e, o.queued ++ o.scan.queuedBy e⟩

/-- A confirmation is not forced, and not before the one before it; and when the process restarts,
    the confirmation that was published last is read back, if there was one. -/
def Steady (o : Observed) : Event → Prop
  | .confirm timestamp force _ => o.clock ≤ timestamp ∧ force = false
  | .restart _ _ five _ => o.scan.five.candleTime = none ∨
      o.scan.five.persisted ∧ five.installed ∧ five.answered
  | .watch .. | .classify .. => True

/-- What steady calls keep. -/
structure Once (o : Observed) : Prop where
  kept : ∃ es, Kept es o.scan
  time : ∀ time, o.scan.five.candleTime = some time → ∃ t ≤ o.clock, time = targetOpenMs .five t
  keys : ∀ key ∈ o.queued, ∃ time, o.scan.five.candleTime = some time ∧
    ∃ entryTime ≤ time, KeyAt entryTime key
  stored : o.scan.five.persisted → ∃ saved ∈ o.scan.five.stored,
    saved.candleTime = o.scan.five.candleTime
  fresh : o.scan.five.candleTime = none → o.scan.five.stored = none
  nodup : o.queued.Nodup

theorem targetOpenMs_mono (interval : Interval) {t t' : ℤ} (h : t ≤ t') :
    targetOpenMs interval t ≤ targetOpenMs interval t' := by
  cases interval <;> simp only [targetOpenMs, seconds] <;> omega

variable {log1p : ℚ → ℚ} {o o' : Observed}

theorem once_initial (clock : ℤ) : Once (.initial clock) where
  kept := ⟨[], kept_initial⟩
  time _ htime := by cases htime
  keys _ hkey := by cases hkey
  stored hpersisted := by cases hpersisted
  fresh _ := rfl
  nodup := List.nodup_nil

/-- A call that publishes no confirmation. -/
theorem Once.unpublished (h : Once o) {w : Scan} (hkept : ∃ es, Kept es w) {clock : ℤ}
    (hclock : o.clock ≤ clock) (hcandle : w.five.candleTime = o.scan.five.candleTime)
    (hpersisted : w.five.persisted → o.scan.five.persisted)
    (hstored : w.five.stored = o.scan.five.stored) : Once ⟨clock, w, o.queued⟩ where
  kept := hkept
  time time htime := by
    obtain ⟨t, ht, rfl⟩ := h.time time (hcandle ▸ htime)
    exact ⟨t, ht.trans hclock, rfl⟩
  keys key hkey := by
    obtain ⟨time, htime, hkeyAt⟩ := h.keys key hkey
    exact ⟨time, hcandle.trans htime, hkeyAt⟩
  stored hsaved := by
    obtain ⟨saved, hmem, htime⟩ := h.stored (hpersisted hsaved)
    exact ⟨saved, hstored ▸ hmem, htime.trans hcandle.symm⟩
  fresh hnone := hstored.trans (h.fresh (hcandle.symm.trans hnone))
  nodup := h.nodup

/-- A build that publishes queues keys that are later than all before. -/
theorem Once.publish (h : Once o) {w : Scan} (hkept : ∃ es, Kept es w) {timestamp : ℤ}
    {saving : Saving} {body : Body Entries} {keys : List String}
    (hfive : w.five = o.scan.five.publish Entries.confirms saving body)
    (hclock : o.clock ≤ timestamp) (hdue : o.scan.five.due .five timestamp)
    (htime : body.candleTime = some (targetOpenMs .five timestamp))
    (hkeys : ∀ key ∈ keys, KeyAt (targetOpenMs .five timestamp) key) (hnodup : keys.Nodup) :
    Once ⟨timestamp, w, o.queued ++ keys⟩ := by
  have hcandle : w.five.candleTime = some (targetOpenMs .five timestamp) := hfive ▸ htime
  -- the latest candle that was published is an earlier one
  have hlater : ∀ time, o.scan.five.candleTime = some time → time < targetOpenMs .five timestamp := by
    intro time hsome
    obtain ⟨t, ht, rfl⟩ := h.time time hsome
    refine lt_of_le_of_ne (targetOpenMs_mono _ (ht.trans hclock)) ?_
    rw [Stage.due, hsome] at hdue
    simpa using hdue
  refine ⟨hkept, ?_, ?_, ?_, ?_, ?_⟩
  · intro time hsome
    exact ⟨timestamp, le_rfl, (Option.some.inj (hcandle.symm.trans hsome)).symm⟩
  · intro key hkey
    refine ⟨_, hcandle, ?_⟩
    rcases List.mem_append.1 hkey with hold | hnew
    · obtain ⟨time, hsome, entryTime, hentry, hkeyAt⟩ := h.keys key hold
      exact ⟨entryTime, hentry.trans (hlater time hsome).le, hkeyAt⟩
    · exact ⟨_, le_rfl, hkeys key hnew⟩
  · intro hpersisted
    dsimp only at hpersisted ⊢
    rw [hfive] at hpersisted ⊢
    simp only [Stage.publish, Bool.and_eq_true, Option.any_eq_true] at hpersisted ⊢
    obtain ⟨-, saved, hsaved, hconfirms⟩ := hpersisted
    rw [Entries.confirms, decide_eq_true_eq] at hconfirms
    exact ⟨saved, hsaved, hconfirms.1⟩
  · intro hnone
    cases hcandle.symm.trans hnone
  · refine List.nodup_append.2 ⟨h.nodup, hnodup, ?_⟩
    rintro key hold _ hnew rfl
    obtain ⟨time, hsome, entryTime, hentry, hkeyAt⟩ := h.keys key hold
    have heq := hkeyAt.time_eq (hkeys key hnew)
    have hlt := hlater time hsome
    omega

theorem once_play (h : Once o) {e : Event} (hsteady : Steady o e)
    (hplay : o.play log1p e = some o') : Once o' := by
  obtain rfl := Option.some.inj hplay
  obtain ⟨es, hkept⟩ := h.kept
  have hkept' : ∃ es, Kept es (o.scan.play log1p e) := ⟨_, kept_play hkept e⟩
  cases e with
  | watch timestamp force b =>
    rw [Scan.queuedBy, List.append_nil]
    exact h.unpublished hkept' le_rfl rfl id rfl
  | classify timestamp force b hourTimestamp hour =>
    rw [Scan.queuedBy, List.append_nil]
    have hfive : (o.scan.play log1p (.classify timestamp force b hourTimestamp hour)).five =
        o.scan.five := by
      rw [Scan.play]
      split <;> rfl
    exact h.unpublished hkept' le_rfl (by rw [hfive]) (by rw [hfive]; exact id) (by rw [hfive])
  | confirm timestamp force b =>
    obtain ⟨hclock, rfl⟩ := hsteady
    have hfive : (o.scan.play log1p (.confirm timestamp false b)).five =
        ensureEntries b timestamp o.scan.fifteen o.scan.five := rfl
    rw [ensureEntries] at hfive
    rw [Scan.queuedBy]
    by_cases hdue : o.scan.five.due .five timestamp
    · rw [if_pos hdue, buildEntries] at hfive
      rw [if_pos (.inr hdue)]
      split
      · rename_i body hbody
        rw [hbody] at hfive
        have happart : Apart o.scan.fifteen.content :=
          ⟨hkept.fifteen.content.plain, hkept.fifteen.content.nodup⟩
        obtain ⟨htime, hkeys, hnodup⟩ := queuedKeys_confirm happart hbody
        exact h.publish hkept' hfive hclock hdue htime hkeys hnodup
      · rename_i message hbody
        rw [hbody] at hfive
        rw [List.append_nil]
        exact h.unpublished hkept' hclock (by rw [hfive]; rfl) (by rw [hfive]; exact id)
          (by rw [hfive]; rfl)
    · rw [if_neg hdue] at hfive
      rw [if_neg (by simpa using hdue), List.append_nil]
      exact h.unpublished hkept' hclock (by rw [hfive]) (by rw [hfive]; exact id) (by rw [hfive])
  | restart hourly fifteen five watchlistSize =>
    rw [Scan.queuedBy, List.append_nil]
    have hfive : (o.scan.play log1p (.restart hourly fifteen five watchlistSize)).five =
        o.scan.five.restart some ⟨none, [], []⟩ five := rfl
    rcases hsteady with hnone | ⟨hpersisted, hinstalled, hanswered⟩
    · have hrestart : o.scan.five.restart some ⟨none, [], []⟩ five =
          { Body.initial ⟨none, [], []⟩ with persisted := false, stored := none } := by
        rw [Stage.restart, h.fresh hnone, ite_self]
        rfl
      rw [hrestart] at hfive
      exact h.unpublished hkept' le_rfl (by rw [hfive, hnone]; rfl) (by rw [hfive]; intro h; cases h)
        (by rw [hfive, h.fresh hnone])
    · obtain ⟨saved, hsaved, htime⟩ := h.stored hpersisted
      have hrestart : o.scan.five.restart some ⟨none, [], []⟩ five =
          { saved with persisted := true, stored := o.scan.five.stored } := by
        rw [Stage.restart, if_pos ⟨hinstalled, hanswered⟩, Option.mem_def.1 hsaved]
        rfl
      rw [hrestart] at hfive
      exact h.unpublished hkept' le_rfl (by rw [hfive, ← htime]) (fun _ => hpersisted)
        (by rw [hfive])

/-- In a run of steady calls no key is queued twice. -/
theorem nodup_queued {clock : ℤ}
    (hrun : Play.RunsBy (Observed.play log1p) Steady (.initial clock) o) : o.queued.Nodup :=
  (hrun.keeps (fun h hsteady hplay => once_play h hsteady hplay) (once_initial clock)).nodup

instance (o : Observed) (e : Event) : Decidable (Steady o e) :=
  match e with
  | .confirm .. => inferInstanceAs (Decidable (_ ∧ _))
  | .restart .. => inferInstanceAs (Decidable (_ ∨ _))
  | .watch .. | .classify .. => inferInstanceAs (Decidable True)

/-- The stages are run again after the restart, and queue nothing. -/
theorem nodup_queued_example : ∃ o : Observed,
    o.queued = ["BTCUSDT:359100000:360000000:Buy:ORB"] ∧ o.queued.Nodup := by
  let es := exampleEvents ++ [.confirm 360400 false exampleEntry]
  have hplay : (Play.playAll (Observed.play id) (.initial 0) es).any fun o =>
      o.queued = ["BTCUSDT:359100000:360000000:Buy:ORB"] := by decide +kernel
  have hsteady : Play.AllBy (Observed.play id) Steady (.initial 0) es := by decide +kernel
  obtain ⟨o, ho, hqueued⟩ := (Option.any_eq_true _ _).1 hplay
  exact ⟨o, of_decide_eq_true hqueued, nodup_queued (.of_playAll hsteady ho)⟩

end IntradayBot.Setup
