import IntradayBot.Strategy.Engines
import IntradayBot.Data.PyValue

/-!
# The upgraded strategies

At startup two upgrades are put around the strategies. The first one replaces the opening range of
the UTC day by that of the London and New York sessions (`sessionOrbEngine`), and stops votes
against the side in which 1H, 15M and 5M agree (`confluence`, `filterVotes`). The second one stops
votes that do not suit the regime of the 1H candles (`detectRegime`, `filterVotesByRegime`). A vote
that is stopped says `WAIT` with no strength.
-/

namespace IntradayBot.Strategy

open Accuracy
open Setup (ema fromEnd trendDirection signalText)

/-! ## The opening range of a session -/

/-- `_parse_clock(value, default)`, in minutes. -/
def parseClock (value : String) (default : ℤ) : ℤ :=
  let raw := (PyText.strip value).toList
  let hour := PyValue.intOfText (String.ofList (raw.takeWhile (· ≠ ':')))
  let minute := PyValue.intOfText (String.ofList ((raw.dropWhile (· ≠ ':')).drop 1))
  match hour, minute with
  | some hour, some minute =>
    if ':' ∈ raw ∧ 0 ≤ hour ∧ hour < 24 ∧ 0 ≤ minute ∧ minute < 60 then hour * 60 + minute
    else default
  | _, _ => default

/-- A session, with its times as they are configured. -/
structure OrbSession where
  name : String
  start : String
  finish : String

/-- `settings()` -/
structure OrbSettings where
  /-- The wall clock of the time zone at a time (UTC), in milliseconds. -/
  wallClock : ℤ → ℤ
  rangeMinutes : ℤ
  minimumVolumeRatio : ℚ
  sessions : List OrbSession

/-- The environment, where the numbers are numbers. -/
structure OrbEnvironment where
  wallClock : ℤ → ℤ
  rangeMinutes : Option ℤ
  minimumVolumeRatio : Option ℚ
  londonStart : Option String
  londonEnd : Option String
  newYorkStart : Option String
  newYorkEnd : Option String

/-- `settings()`, in an environment. -/
def OrbEnvironment.settings (env : OrbEnvironment) : OrbSettings where
  wallClock := env.wallClock
  rangeMinutes := max 15 (min 120 (env.rangeMinutes.getD 60))
  minimumVolumeRatio := max 1 (min 3 (env.minimumVolumeRatio.getD (11 / 10)))
  sessions := [
    ⟨"LONDON", env.londonStart.getD "14:00", env.londonEnd.getD "17:00"⟩,
    ⟨"NEW_YORK", env.newYorkStart.getD "20:00", env.newYorkEnd.getD "23:30"⟩]

/-- What `_active_session` returns: times on the wall clock. -/
structure ActiveSession where
  name : String
  start : ℤ
  rangeEnd : ℤ
  finish : ℤ

/-- The session on the day of `reference`. -/
def OrbSession.on (session : OrbSession) (rangeMinutes reference : ℤ) : ActiveSession :=
  let start := startOfDay reference + parseClock session.start (14 * 60) * 60000
  let finish := startOfDay reference + parseClock session.finish (17 * 60) * 60000
  { name := session.name
    start := start
    rangeEnd := start + rangeMinutes * 60000
    finish := if finish ≤ start then finish + 86400000 else finish }

/-- `_active_session(reference, cfg)` -/
def activeSession (cfg : OrbSettings) (reference : ℤ) : Option ActiveSession :=
  (cfg.sessions.map (·.on cfg.rangeMinutes reference)).find? fun session =>
    session.start ≤ reference ∧ reference ≤ session.finish

/-- The part of `session_orb_engine` after a break of `level` on a side. -/
def sessionBreak (cfg : OrbSettings) (name : String) (side : Signal) (level : ℚ)
    (tf1h tf5m : List Accuracy.Bar) : Vote :=
  let last5 := barFromEnd tf5m 0
  let ratio := volumeRatio tf5m
  let body := bodyRatioOver (1 / 10 ^ 12) last5
  if trendDirection tf1h ≠ .wait ∧ trendDirection tf1h ≠ side then
    vote "ORB" .wait (if side = .buy then s!"{name} bullish ORB blocked by 1H bearish trend"
      else s!"{name} bearish ORB blocked by 1H bullish trend") 0
  else if ratio < cfg.minimumVolumeRatio ∨ body < 2 / 5 ∨
      ¬Follows side (barFromEnd tf5m 1) last5 then
    vote "ORB" .wait (if side = .buy then
        s!"{name} bullish ORB needs volume, body, and 5M follow-through"
      else s!"{name} bearish ORB needs volume, body, and 5M follow-through") 0
  else
    let distancePct := if level = 0 then 0 else beyondPct side last5.close level
    vote "ORB" side (if side = .buy then
        s!"{name} session range high broken with 15M close and 5M confirmation"
      else s!"{name} session range low broken with 15M close and 5M confirmation")
      (min 5 (5 / 2 + min distancePct 1 + min (ratio - 1) 1 + body))

/-- `session_orb_engine(tf1h, tf15m, tf5m)` -/
def sessionOrbEngine (cfg : OrbSettings) (tf1h tf15m tf5m : List Accuracy.Bar) : Vote :=
  let wait (reason : String) : Vote := vote "ORB" .wait reason 0
  if tf15m.length < 20 ∨ tf5m.length < 21 then wait "Not enough closed candles for session ORB"
  else
    let last5 := barFromEnd tf5m 0
    let last15 := barFromEnd tf15m 0
    let reference := cfg.wallClock last5.time
    match activeSession cfg reference with
    | none => wait "Outside configured London/New York ORB sessions"
    | some session =>
      let opening := tf15m.filter fun row =>
        session.start ≤ cfg.wallClock row.time ∧ cfg.wallClock row.time < session.rangeEnd
      let high := maxOf (opening.map (·.high))
      let low := minOf (opening.map (·.low))
      if (opening.length : ℤ) < max 1 (cfg.rangeMinutes / 15) then
        wait s!"{session.name} opening range is not complete"
      else if reference < session.rangeEnd ∨ session.finish < reference then
        wait s!"{session.name} ORB setup is outside its valid breakout window"
      else if high < last15.close ∧ high < last5.close then
        sessionBreak cfg session.name .buy high tf1h tf5m
      else if last15.close < low ∧ last5.close < low then
        sessionBreak cfg session.name .sell low tf1h tf5m
      else wait s!"{session.name} opening range has not produced a confirmed breakout"

/-! ## Confluence -/

/-- The directions of the three timeframes. -/
structure Directions where
  direction1H : Signal
  direction15M : Signal
  direction5M : Signal
  deriving DecidableEq

/-- What `confluence` returns; it is ready if there are directions. -/
structure Confluence where
  direction : Signal
  directions : Option Directions
  reason : String
  deriving DecidableEq

/-- `direction15` -/
def direction15M (tf15m : List Accuracy.Bar) : Signal :=
  let closes15 := tf15m.map (·.close)
  let fast := fromEnd (ema closes15 20) 0
  let slow := fromEnd (ema closes15 50) 0
  if slow < fast ∧ fast ≤ fromEnd closes15 0 then .buy
  else if fast < slow ∧ fromEnd closes15 0 ≤ fast then .sell
  else .wait

/-- `direction5` -/
def direction5M (tf5m : List Accuracy.Bar) : Signal :=
  let last5 := barFromEnd tf5m 0
  let direction5 := candleDirection last5
  if Follows direction5 (barFromEnd tf5m 1) last5 then direction5 else .wait

/-- `confluence(tf1h, tf15m, tf5m)` -/
def confluence (tf1h tf15m tf5m : List Accuracy.Bar) : Confluence :=
  if tf1h.length < 55 ∨ tf15m.length < 55 ∨ tf5m.length < 3 then
    ⟨.wait, none, "Insufficient 1H/15M/5M history"⟩
  else if ema (tf15m.map (·.close)) 20 = [] ∨ ema (tf15m.map (·.close)) 50 = [] then
    ⟨.wait, none, "15M EMA confluence unavailable"⟩
  else
    let d : Directions := ⟨trendDirection tf1h, direction15M tf15m, direction5M tf5m⟩
    let aligned := if d.direction1H = d.direction15M ∧ d.direction15M = d.direction5M then
      d.direction1H else .wait
    ⟨aligned, some d, if aligned = .wait then "1H/15M/5M directions are not fully aligned"
      else "1H, 15M, and 5M aligned"⟩

/-- A vote that is stopped. -/
def stopped (vote : Vote) (reason : String) : Vote :=
  { vote with signal := .wait, strength := 0, reason := reason }

/-- `_filter_votes(votes, mtf)` -/
def filterVotes (votes : List Vote) (mtf : Confluence) : List Vote :=
  votes.map fun vote =>
    if vote.signal ≠ .wait ∧ vote.signal ≠ mtf.direction then
      stopped vote s!"{vote.engine} blocked: {mtf.reason}"
    else vote

/-! ## Regimes -/

inductive RegimeState
  | trending
  | ranging
  | highVolatility
  | unknown
  deriving DecidableEq

/-- The measures of a regime, rounded. -/
structure Measures where
  emaSeparationPct : ℚ
  ema20SlopePct : ℚ
  atrPct : ℚ
  deriving DecidableEq

/-- What `detect_regime` returns; one that is not known has no measures. -/
structure Regime where
  regime : RegimeState
  direction : Signal
  confidence : ℤ
  measures : Option Measures
  reason : String
  deriving DecidableEq

/-- `_atr(candles, period)` -/
def atr (candles : List Accuracy.Bar) (period : ℕ) : ℚ :=
  if candles.length < period + 1 then 0
  else
    let values := List.zipWith (fun previous row : Accuracy.Bar =>
      max (max (row.high - row.low) |row.high - previous.close|) |row.low - previous.close|)
      candles candles.tail
    if period ≤ values.length then (values.rtake period).sum / period else 0

/-- `detect_regime(tf1h)` -/
def detectRegime (tf1h : List Accuracy.Bar) : Regime :=
  let closes := tf1h.map (·.close)
  let ema20 := ema closes 20
  let ema50 := ema closes 50
  let last := fromEnd closes 0
  if tf1h.length < 55 then ⟨.unknown, .wait, 0, none, "Insufficient 1H history"⟩
  else if ema20 = [] ∨ ema50 = [] ∨ last ≤ 0 then
    ⟨.unknown, .wait, 0, none, "EMA regime unavailable"⟩
  else
    let separationPct := |fromEnd ema20 0 - fromEnd ema50 0| / last * 100
    let slope := slopePct ema20 3
    let atrPct := atr tf1h 14 / last * 100
    let measures : Measures := ⟨roundTo 4 separationPct, roundTo 4 slope, roundTo 4 atrPct⟩
    if 18 / 100 ≤ separationPct ∧ 8 / 100 ≤ |slope| then
      let direction := if fromEnd ema50 0 < fromEnd ema20 0 then Signal.buy else .sell
      ⟨.trending, direction, min 100 (Decimal.truncate (55 + separationPct * 80 + |slope| * 100)),
        some measures, s!"Strong {signalText direction} trend with EMA separation and slope"⟩
    else if 5 / 2 ≤ atrPct then
      ⟨.highVolatility, .wait, min 100 (Decimal.truncate (50 + atrPct * 10)), some measures,
        "1H ATR volatility is elevated"⟩
    else
      ⟨.ranging, .wait, max 40 (min 90 (Decimal.truncate (80 - separationPct * 100))),
        some measures, "EMA separation and slope do not confirm a trend"⟩

/-- `_TREND_ENGINES` -/
def TREND_ENGINES : List String := ["Trend Follow", "S/R Breakout", "ORB", "VWAP Bounce"]

/-- `_REVERSAL_ENGINES` -/
def REVERSAL_ENGINES : List String := ["RSI Divergence", "Liquidity Sweep"]

/-- `blocked_reason`, of a vote for a side. -/
def blockedReason (regime : Regime) (vote : Vote) : Option String :=
  if regime.regime = .trending ∧ vote.signal ≠ regime.direction then
    some s!"{vote.engine} blocked by opposing {signalText regime.direction} trending regime"
  else if regime.regime = .ranging ∧ vote.engine ∈ TREND_ENGINES then
    some s!"{vote.engine} blocked because the 1H market is ranging"
  else if regime.regime = .highVolatility ∧ vote.engine ∈ REVERSAL_ENGINES then
    some s!"{vote.engine} blocked during high-volatility regime"
  else none

/-- `filter_votes(votes, regime)` -/
def filterVotesByRegime (votes : List Vote) (regime : Regime) : List Vote :=
  votes.map fun vote =>
    match if vote.signal = .wait then none else blockedReason regime vote with
    | some reason => stopped vote reason
    | none => vote

/-! ## The votes -/

/-- `BotEngineV2.strategies(snapshot)` -/
def engineVotes (midnight : ℤ) (tf1h tf15m tf5m : List Accuracy.Bar) : List Vote :=
  [trendFollowingEngine tf1h tf15m tf5m, srBreakoutEngine tf1h tf15m tf5m,
    rsiDivergenceEngine tf1h tf15m tf5m, vwapBounceEngine tf1h tf15m tf5m,
    liquiditySweepEngine tf1h tf15m tf5m, orbEngine midnight tf1h tf15m tf5m]

/-- `upgraded_strategies(self, snapshot)` of the first upgrade, before the votes are filtered. -/
def sessionVotes (cfg : OrbSettings) (midnight : ℤ) (tf1h tf15m tf5m : List Accuracy.Bar) :
    List Vote :=
  let orb := sessionOrbEngine cfg tf1h tf15m tf5m
  (engineVotes midnight tf1h tf15m tf5m).map fun row => if row.engine = "ORB" then orb else row

/-- `strategies(snapshot)` with both upgrades. -/
def strategies (cfg : OrbSettings) (midnight : ℤ) (tf1h tf15m tf5m : List Accuracy.Bar) :
    List Vote :=
  let votes := filterVotes (sessionVotes cfg midnight tf1h tf15m tf5m) (confluence tf1h tf15m tf5m)
  filterVotesByRegime votes (detectRegime tf1h)

end IntradayBot.Strategy
