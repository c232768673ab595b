import IntradayBot.Strategy.Filters
import IntradayBot.Setup.Classifier

/-!
# The router

The router turns the votes into a decision (`routeVotes`). A side needs votes, how many depends on
the mode, and a single vote needs some strength; where both sides have votes, only the aggressive
mode decides, by the number of the votes and their strengths.

`evaluateSignal` is what the classification asks: the votes on the closed candles of a symbol, and
the decision.
-/

namespace IntradayBot.Strategy

open Accuracy
open Setup (signalText strongest Evaluation)

inductive Mode
  | conservative
  | balanced
  | aggressive
  deriving DecidableEq

def Mode.text : Mode → String
  | .conservative => "conservative"
  | .balanced => "balanced"
  | .aggressive => "aggressive"

/-- `mode.title()` -/
def Mode.title : Mode → String
  | .conservative => "Conservative"
  | .balanced => "Balanced"
  | .aggressive => "Aggressive"

/-- `normalize_mode(mode)` -/
def normalizeMode (mode : String) : Mode :=
  let lower := String.ofList (mode.toList.map Char.toLower)
  if lower = "conservative" then .conservative
  else if lower = "aggressive" then .aggressive
  else .balanced

/-- `vote_strength(vote_item)` -/
def voteStrength (vote : Vote) : ℚ := |vote.strength|

/-- `single_vote_min_strength(mode)` -/
def singleVoteMinStrength : Mode → ℚ
  | .aggressive => 2
  | .balanced => 3
  | .conservative => 0

/-- `required` -/
def Mode.required : Mode → ℕ
  | .conservative => 2
  | _ => 1

/-- `_weak_single_vote(votes, mode)`: the strength of a vote that is alone and weak. -/
def weakSingleVote (votes : List Vote) (mode : Mode) : Option ℚ :=
  match votes with
  | [leader] =>
    if voteStrength leader < singleVoteMinStrength mode then some (voteStrength leader) else none
  | _ => none

/-- The decision for a side, unless `_wait_for_weak_vote(side, votes, required, mode)` waits. -/
def decideFor (side : Signal) (votes : List Vote) (mode : Mode) (approved : String) : Router :=
  match weakSingleVote votes mode with
  | some strength =>
    { decision := .wait
      confidence := votes.length
      requiredVotes := mode.required
      mode := mode.text
      reason := s!"Router waiting: single {signalText side} vote strength {fixed 2 strength} " ++
        s!"is below {fixed 2 (singleVoteMinStrength mode)}" }
  | none =>
    let engine := ((strongest votes).map Vote.engine).getD ""
    { decision := side
      confidence := votes.length
      requiredVotes := mode.required
      mode := mode.text
      reason := s!"{approved} approved {signalText side} from {engine}" }

/-- The votes for a side. -/
def votesFor (side : Signal) (votes : List Vote) : List Vote :=
  votes.filter fun vote => vote.signal = side

/-- `buy_score`, `sell_score` -/
def sideScore (votes : List Vote) : ℚ := votes.length + (votes.map voteStrength).sum / 100

/-- `route_votes(votes, mode)` -/
def routeVotes (votes : List Vote) (mode : String) : Router :=
  let mode := normalizeMode mode
  let buyVotes := votesFor .buy votes
  let sellVotes := votesFor .sell votes
  if mode = .aggressive ∧ buyVotes ≠ [] ∧ sideScore sellVotes < sideScore buyVotes then
    decideFor .buy buyVotes mode "Aggressive demo"
  else if mode = .aggressive ∧ sellVotes ≠ [] ∧ sideScore buyVotes < sideScore sellVotes then
    decideFor .sell sellVotes mode "Aggressive demo"
  else if mode.required ≤ buyVotes.length ∧ sellVotes = [] then
    decideFor .buy buyVotes mode s!"{mode.title} router"
  else if mode.required ≤ sellVotes.length ∧ buyVotes = [] then
    decideFor .sell sellVotes mode s!"{mode.title} router"
  else
    { decision := .wait
      confidence := max buyVotes.length sellVotes.length
      requiredVotes := mode.required
      mode := mode.text
      reason :=
        if buyVotes ≠ [] ∧ sellVotes ≠ [] then "Router waiting because Buy/Sell engines conflict"
        else if mode = .conservative then "Router waiting for 2 matching engine votes"
        else "Router waiting for at least 1 actionable engine vote" }

/-- The engines of the accuracy replay. -/
def hardened : Engines where
  trendFollowing := trendFollowingEngine
  srBreakout := srBreakoutEngine
  rsiDivergence := rsiDivergenceEngine
  vwapBounce := vwapBounceEngine
  liquiditySweep := liquiditySweepEngine
  routeVotes := routeVotes

/-! ## The evaluation of a symbol -/

/-- What `fetch_candles` returns: the candles, where `None` is the empty list, and a message. -/
structure Fetched where
  candles : List Accuracy.Bar
  message : String

/-- `_closed_fetch_candles(symbol, interval)`, of what the exchange answers at a time. -/
def closedFetchCandles (answer : Fetched) (interval : Interval) (nowMs : ℤ) : Fetched :=
  if answer.candles = [] then answer
  else
    let closed := Setup.filterClosedCandles answer.candles interval nowMs
    if closed.length < 60 then
      ⟨[], s!"Not enough closed candles for interval {interval.ms / 60000}"⟩
    else ⟨closed, "OK"⟩

/-- The candles of a snapshot, with the messages. -/
structure Snapshot where
  tf1h : Fetched
  tf15m : Fetched
  tf5m : Fetched

/-- `snapshot["ok"]` -/
def Snapshot.ok (s : Snapshot) : Bool :=
  s.tf1h.candles ≠ [] ∧ s.tf15m.candles ≠ [] ∧ s.tf5m.candles ≠ []

/-- `snapshot["message"]` -/
def Snapshot.message (s : Snapshot) : String :=
  "; ".intercalate (([s.tf1h.message, s.tf15m.message, s.tf5m.message].filter (· ≠ "")).eraseDups)

/-- `core.evaluate_signal(symbol, "5", mode)`, on the closed candles of the symbol. -/
def evaluateSignal (cfg : OrbSettings) (midnight : ℤ) (snapshot : Snapshot) (mode : String) :
    Evaluation :=
  let tf5m := snapshot.tf5m.candles
  let votes := if snapshot.ok then
    strategies cfg midnight snapshot.tf1h.candles snapshot.tf15m.candles tf5m else []
  let router := routeVotes votes mode
  { signal := if snapshot.ok then router.decision else .wait
    reason := if snapshot.ok then router.reason else snapshot.message
    votes := votes
    router := router
    entryInterval := "5"
    signalCandleTime := tf5m.getLast?.map (·.time) }

end IntradayBot.Strategy
