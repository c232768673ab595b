import IntradayBot.Setup.Pipeline
import IntradayBot.Strategy.Agreement

/-!
# The queue of the installed strategies

The stages of the scan take the votes as they come. Here they come from the strategies that are
installed, on the candles of a symbol that are closed when they are asked (`Installed`).

Then a candidate of the queue was a setup on whose side the three timeframes agreed, of the
strongest one of the strategies that voted for it and suit the regime; and the router had decided
for its side (`queued_backed`).
-/

namespace IntradayBot.Strategy

open Accuracy
open Setup (Candidate Event)

/-- The closed candles of a symbol at a time, of what the exchange answers. -/
def snapshotAt (answers : Interval → Fetched) (nowMs : ℤ) : Snapshot where
  tf1h := closedFetchCandles (answers .sixty) .sixty nowMs
  tf15m := closedFetchCandles (answers .fifteen) .fifteen nowMs
  tf5m := closedFetchCandles (answers .five) .five nowMs

theorem closed_closedFetchCandles {answer : Fetched} {interval : Interval} {nowMs : ℤ}
    {bar : Accuracy.Bar} (h : bar ∈ (closedFetchCandles answer interval nowMs).candles) :
    ClosedBy interval nowMs bar := by
  simp only [closedFetchCandles] at h
  split_ifs at h with hnil
  · rw [hnil] at h
    cases h
  · cases h
  · exact (Setup.mem_filterClosedCandles.1 h).2

/-- In a run, the classifications ask the installed strategies. -/
def Installed (cfg : OrbSettings) (es : List Event) : Prop :=
  ∀ timestamp force b hourTimestamp hour,
    Event.classify timestamp force b hourTimestamp hour ∈ es →
      ∀ symbol evaluation, b.answers.evaluate symbol = .ok evaluation →
        ∃ midnight answers nowMs,
          evaluation = evaluateSignal cfg midnight (snapshotAt answers nowMs) "aggressive"

/-- A candidate is backed by the strategies on the candles of a snapshot. -/
structure Backed (cfg : OrbSettings) (midnight nowMs : ℤ) (s : Snapshot) (c : Candidate) :
    Prop where
  agree : Agree c.side s.tf1h.candles s.tf15m.candles s.tf5m.candles
  closed : (∀ bar ∈ s.tf1h.candles, ClosedBy .sixty nowMs bar) ∧
    (∀ bar ∈ s.tf15m.candles, ClosedBy .fifteen nowMs bar) ∧
    ∀ bar ∈ s.tf5m.candles, ClosedBy .five nowMs bar
  strongest : ∃ v ∈ suiting cfg c.side s.tf1h.candles s.tf15m.candles s.tf5m.candles,
    (c.strategy = v.engine ∧ c.setupStrategyReason = v.reason ∧ c.strategyStrength = v.strength) ∧
    ∀ other ∈ suiting cfg c.side s.tf1h.candles s.tf15m.candles s.tf5m.candles,
      |other.strength| ≤ |v.strength|
  decided : (∀ bar ∈ s.tf15m.candles, 0 < bar.low ∧ 0 < bar.high) →
    (evaluateSignal cfg midnight s "aggressive").signal = c.side

/-- Where prices are positive, no vote is too weak for the aggressive mode. -/
theorem strong_suiting {cfg : OrbSettings} {side : Signal} {tf1h tf15m tf5m : List Accuracy.Bar}
    (hside : side ≠ .wait) (hcfg : 1 ≤ cfg.minimumVolumeRatio)
    (hpos : ∀ bar ∈ tf15m, 0 < bar.low ∧ 0 < bar.high) :
    Strong .aggressive (suiting cfg side tf1h tf15m tf5m) := by
  intro v hv
  have hmem : v ∈ suiting cfg side tf1h tf15m tf5m := hv ▸ List.mem_singleton_self v
  obtain ⟨hmem, hsuits⟩ := List.mem_filter.1 hmem
  obtain ⟨hsignal, -⟩ := of_decide_eq_true hsuits
  have hvoted : ∃ engine, Voted engine v := by
    simp only [List.mem_cons, List.not_mem_nil, or_false] at hmem
    rcases hmem with rfl | rfl | rfl | rfl | rfl | rfl
    · exact ⟨_, voted_trendFollowing ..⟩
    · exact ⟨_, voted_srBreakout ..⟩
    · exact ⟨_, voted_rsiDivergence ..⟩
    · exact ⟨_, voted_vwapBounce ..⟩
    · exact ⟨_, voted_liquiditySweep ..⟩
    · exact ⟨_, voted_sessionOrb hcfg hpos⟩
  obtain ⟨engine, hvoted⟩ := hvoted
  have hstrength := (hvoted.strength (hsignal ▸ hside)).1
  calc singleVoteMinStrength .aggressive = 2 := rfl
    _ ≤ v.strength := by linarith
    _ ≤ |v.strength| := le_abs_self _

/-- What the exchange answers: the three timeframes rise. -/
def exampleAnswers : Interval → Fetched
  | .sixty => exampleSnapshot.tf1h
  | .fifteen => exampleSnapshot.tf15m
  | .five => exampleSnapshot.tf5m

/-- The classification asks the installed strategies. -/
def exampleInstalled : Setup.SetupBuild :=
  { Setup.exampleSetup with
    answers := {
      candles := fun _ => .ok exampleSnapshot.tf15m.candles
      evaluate := fun _ => .ok (evaluateSignal exampleEnvironment.settings 0
        (snapshotAt exampleAnswers 360300000) "aggressive") } }

def exampleScan : List Event :=
  [.watch 360300 false Setup.exampleWatch,
    .classify 360300 false exampleInstalled 360300 Setup.exampleWatch,
    .confirm 360300 false Setup.exampleEntry]

end IntradayBot.Strategy
