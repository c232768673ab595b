import Mathlib.Data.Rat.Floor
import Mathlib.Tactic.NormNum

/-!
# Configuration

The settings of the execution service. Each number read from the environment is
clamped into its range (`boundedNumber`), so that the ranges hold whatever the
environment says: they are part of the configuration.
-/

namespace IntradayBot.Node

/-- `boundedNumber(env, name, fallback, min, max)`, given the number parsed from
    the environment, if it is one. -/
def boundedNumber (parsed : Option ℚ) (fallback lo hi : ℚ) : ℚ :=
  max lo (min hi (parsed.getD fallback))

theorem le_boundedNumber (parsed : Option ℚ) (fallback lo hi : ℚ) :
    lo ≤ boundedNumber parsed fallback lo hi := le_max_left _ _

theorem boundedNumber_le (parsed : Option ℚ) (fallback : ℚ) {lo hi : ℚ} (h : lo ≤ hi) :
    boundedNumber parsed fallback lo hi ≤ hi := max_le h (min_le_left _ _)

/-- The settings that execution reads. -/
structure Config where
  ownerId : String
  maxActiveTrades : ℕ
  maxCandidateAgeSeconds : ℚ
  maxEntryDriftPct : ℚ
  structureLookback : ℕ
  minimumGrossRr : ℚ
  leverage : ℚ
  maxActiveTrades_eq : maxActiveTrades = 3
  maxEntryDriftPct_pos : 0 < maxEntryDriftPct
  structureLookback_pos : 0 < structureLookback
  minimumGrossRr_eq : minimumGrossRr = 2
  leverage_eq : leverage = 10

/-- The settings given by the environment: `NODE_EXECUTION_OWNER_ID`,
    `MAX_ACTIVE_TRADES`, `EXECUTION_CANDIDATE_MAX_AGE_SECONDS`,
    `EXECUTION_MAX_ENTRY_DRIFT_PCT` and `NODE_STRUCTURE_LOOKBACK_15M`. -/
def loadConfig (ownerId : String) (trades age drift lookback : Option ℚ) : Config where
  ownerId := ownerId
  maxActiveTrades := ⌊boundedNumber trades 3 3 3⌋₊
  maxCandidateAgeSeconds := boundedNumber age 1200 60 3600
  maxEntryDriftPct := boundedNumber drift (1 / 2) (1 / 20) 3
  structureLookback := ⌊boundedNumber lookback 12 3 50⌋₊
  minimumGrossRr := 2
  leverage := 10
  maxActiveTrades_eq := by
    have h : boundedNumber trades 3 3 3 = 3 :=
      le_antisymm (boundedNumber_le _ _ le_rfl) (le_boundedNumber _ _ _ _)
    rw [h]
    exact Nat.floor_ofNat 3
  maxEntryDriftPct_pos := lt_of_lt_of_le (by norm_num) (le_boundedNumber _ _ _ _)
  structureLookback_pos :=
    Nat.floor_pos.2 ((by norm_num : (1 : ℚ) ≤ 3).trans (le_boundedNumber _ _ _ _))
  minimumGrossRr_eq := rfl
  leverage_eq := rfl

end IntradayBot.Node
