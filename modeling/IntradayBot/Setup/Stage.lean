import IntradayBot.Accuracy.Replay

/-!
# The stages of the scan

The scan has three stages, for the closed candles of 1H, 15M and 5M. Each keeps a state of its
own (`Stage`): a build for the latest closed candle publishes a new content, and saves it in the
store and reads it back (`Stage.publish`). A build that raises leaves the content as it was
(`Stage.fail`), and the stage is due again. After a restart a stage starts from what the store has.
-/

namespace IntradayBot.Setup

open Accuracy

/-- The seconds of an interval. -/
def seconds : Interval → ℤ
  | .five => 300
  | .fifteen => 900
  | .sixty => 3600

/-- The opening time, in milliseconds, of the latest candle that is closed at a time in seconds:
    `_target_candle_open_seconds(timestamp) * 1000`. -/
def targetOpenMs (interval : Interval) (timestamp : ℤ) : ℤ :=
  (timestamp / seconds interval - 1) * seconds interval * 1000

inductive Status
  | idle
  | ready
  | empty
  | waiting
  | stale
  | error
  deriving DecidableEq, Repr

/-- What a stage saves: `body` in `_persist`. -/
structure Body (ρ : Type) where
  status : Status
  candleTime : Option ℤ
  updatedAt : ℤ
  content : ρ
  lastError : Option String

/-- `_STATE` of a stage, and what the store has under its key. -/
structure Stage (ρ : Type) extends Body ρ where
  persisted : Bool
  stored : Option (Body ρ)

/-- What `_persist` meets: whether there is a store, whether `put` takes effect, and whether
    neither `put` nor `get` raises. -/
structure Saving where
  installed : Bool
  written : Bool
  answered : Bool

/-- What a stage reads at its start: whether there is a store, and whether `get` answers. -/
structure Loading where
  installed : Bool
  answered : Bool

section

variable {ρ : Type}

/-- `_STATE`, as the module has it. -/
def Body.initial (content : ρ) : Body ρ where
  status := .idle
  candleTime := none
  updatedAt := 0
  content := content
  lastError := none

namespace Stage

/-- What the store has after `put`. -/
def save (s : Stage ρ) (saving : Saving) (body : Body ρ) : Option (Body ρ) :=
  if saving.installed ∧ saving.written then some body else s.stored

/-- A build publishes its payload: `_persist` and the update of `_STATE`. The body that is read back
    is compared by `confirms`. -/
def publish (confirms : Body ρ → Body ρ → Bool) (s : Stage ρ) (saving : Saving) (body : Body ρ) :
    Stage ρ where
  toBody := body
  persisted := saving.installed && saving.answered &&
    (s.save saving body).any fun confirmed => confirms confirmed body
  stored := s.save saving body

/-- A build raised. -/
def fail (hasCache : ρ → Bool) (s : Stage ρ) (message : String) : Stage ρ :=
  { s with
    status := if hasCache s.content then .stale else .error
    lastError := some message }

/-- `build`, of which `result` is what it computes before it publishes. -/
def build (confirms : Body ρ → Body ρ → Bool) (hasCache : ρ → Bool) (s : Stage ρ) (saving : Saving)
    (result : Except String (Body ρ)) : Stage ρ :=
  match result with
  | .ok body => s.publish confirms saving body
  | .error message => s.fail hasCache message

/-- `due(now)` -/
def due (interval : Interval) (s : Stage ρ) (timestamp : ℤ) : Bool :=
  s.candleTime.getD 0 ≠ targetOpenMs interval timestamp

/-- The stage after a restart: `_load_persisted` on the state as the module has it. `accept` is what
    is kept of the content of the store, if it is of use. -/
def restart (accept : ρ → Option ρ) (content : ρ) (s : Stage ρ) (loading : Loading) : Stage ρ :=
  match (if loading.installed ∧ loading.answered then s.stored else none).bind fun saved =>
      (accept saved.content).map fun content => { saved with content := content } with
  | some saved => { saved with persisted := true, stored := s.stored }
  | none => { Body.initial content with persisted := false, stored := s.stored }

end Stage

/-! ## What is true of the contents -/

/-- Every content that the stage has with its candle time, in memory or in the store, is of a
    kind. -/
structure Stage.All (P : Option ℤ → ρ → Prop) (s : Stage ρ) : Prop where
  content : P s.candleTime s.content
  stored : ∀ saved ∈ s.stored, P saved.candleTime saved.content

namespace Stage.All

variable {P Q : Option ℤ → ρ → Prop} {s : Stage ρ}

theorem mono (h : s.All P) (hPQ : ∀ time content, P time content → Q time content) : s.All Q where
  content := hPQ _ _ h.content
  stored saved hsaved := hPQ _ _ (h.stored saved hsaved)

theorem build {confirms : Body ρ → Body ρ → Bool} {hasCache : ρ → Bool} {saving : Saving}
    {result : Except String (Body ρ)} (h : s.All P)
    (hresult : ∀ body, result = .ok body → P body.candleTime body.content) :
    (s.build confirms hasCache saving result).All P := by
  cases result with
  | error message => exact ⟨h.content, h.stored⟩
  | ok body =>
    refine ⟨hresult body rfl, fun saved hsaved => ?_⟩
    change saved ∈ s.save saving body at hsaved
    rw [Stage.save] at hsaved
    split at hsaved
    · obtain rfl : body = saved := by simpa using hsaved
      exact hresult _ rfl
    · exact h.stored saved hsaved

theorem restart {accept : ρ → Option ρ} {content : ρ} {loading : Loading} (h : s.All P)
    (hcontent : P none content)
    (haccept : ∀ time saved kept, P time saved → accept saved = some kept → P time kept) :
    (s.restart accept content loading).All P := by
  rw [Stage.restart]
  split
  · rename_i saved hsaved
    obtain ⟨stored, hstored, hmap⟩ := Option.bind_eq_some_iff.1 hsaved
    obtain ⟨kept, hkept, rfl⟩ := Option.map_eq_some_iff.1 hmap
    refine ⟨haccept stored.candleTime stored.content kept (h.stored stored ?_) hkept, h.stored⟩
    split at hstored
    · exact hstored
    · cases hstored
  · exact ⟨hcontent, h.stored⟩

end Stage.All

end

end IntradayBot.Setup
