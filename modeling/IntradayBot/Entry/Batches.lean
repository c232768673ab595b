import Mathlib.Data.List.Nodup
import IntradayBot.Data.Play
import IntradayBot.Entry.Safety

/-!
# Entry Safety while positions open

A run of Entry Safety judges its queue one candidate after the other, and the executor opens what
was approved later on, while the next runs are under way. A `Market` is what all of them depend
on: `BOT_STATE`, the open positions, the run that is under way and the approved candidates that
wait for the executor. `Market.play` is one step of the whole.

The guard sees the open positions, but neither what its run approved so far nor what waits for the
executor, and the cooldown is checked against a copy of `BOT_STATE`. The limits on the entries
(`Capped`) hold where the candidates that pass leave room for all of these (`Heedful`).
-/

namespace IntradayBot.Entry

open Play

/-! ## The system -/

/-- An approved candidate that waits for the executor. -/
structure Underway where
  key : String
  symbol : String
  /-- The copy of `BOT_STATE` that it was judged with. -/
  state : BotState
  /-- The time of the run that approved it. -/
  timestamp : ℤ

/-- A candidate that was judged, and the answers that it was judged on. -/
structure Judged where
  candidate : PyDict
  answers : Answers

/-- A run of `build` that is not over. -/
structure Build where
  timestamp : ℤ
  /-- The copy of `BOT_STATE`. -/
  state : BotState
  /-- The candidates that are not judged yet. -/
  queue : List PyDict
  judged : List Judged
  approved : List PyDict

/-- A candidate that the executor opened, and when. -/
structure Opening where
  key : String
  time : ℤ

/-- What the runs of Entry Safety depend on. -/
structure Market where
  clock : ℤ
  bot : BotState
  build : Option Build
  waiting : List Underway
  /-- The symbols of the open positions. -/
  positions : List String
  /-- The last one first. -/
  openings : List Opening

/-- The answer shows a number of positions, or as many as fit the first page: five do. -/
def Payload.Shows (payload : Payload) (n : ℕ) : Prop :=
  payload.retCode = 0 →
    ∃ rows ∈ (openRows payload.list).toOption, min n 5 ≤ rows.length ∧ rows.length ≤ n

instance (payload : Payload) (n : ℕ) : Decidable (payload.Shows n) :=
  inferInstanceAs (Decidable (_ → _))

/-- The exchange answers the guard with the open positions. -/
def Reads.Show (reads : Reads) (symbol : String) (positions : List String) : Prop :=
  (∀ payload ∈ reads.bySymbol.toOption, payload.Shows (positions.count symbol)) ∧
    (∀ payload ∈ reads.all.toOption, payload.Shows positions.length) ∧
    ∀ payload ∈ reads.active.toOption, payload.Shows positions.length

instance (reads : Reads) (symbol : String) (positions : List String) :
    Decidable (reads.Show symbol positions) := inferInstanceAs (Decidable (_ ∧ _))

namespace Market

variable (rules : Rules) (w : Market)

/-- A run begins, with a copy of `BOT_STATE`. -/
def start (timestamp : ℤ) (source : PyDict) : Option Market :=
  if w.build.isNone ∧ timestamp ≤ w.clock ∧ sourceReady rules.repr source then
    some { w with build := some ⟨timestamp, w.bot, confirmedEntryQueue source, [], []⟩ }
  else none

/-- The run judges its next candidate; if that raises, the run fails. -/
def judge (answers : Answers) : Option Market :=
  match w.build with
  | some ⟨timestamp, state, candidate :: queue, judged, approved⟩ =>
    if ∀ guards ∈ answers.guards, guards.2.Show (candidateSymbol rules candidate) w.positions then
      match evaluateCandidate rules answers candidate state timestamp with
      | .ok (_, passed) =>
        some { w with
          build := some
            ⟨timestamp, state, queue, judged ++ [⟨candidate, answers⟩], approved ++ passed.toList⟩ }
      | .error _ => some { w with build := none }
    else none
  | _ => none

/-- The executor knows a candidate. -/
def Knows (key : String) : Prop := key ∈ w.waiting.map (·.key) ∨ key ∈ w.openings.map (·.key)

instance (key : String) : Decidable (w.Knows key) := inferInstanceAs (Decidable (_ ∨ _))

/-- An approved candidate, as it waits for the executor. -/
def underway (build : Build) (candidate : PyDict) : Underway where
  key := (candidate.get "candidateKey").textOrEmpty rules.repr
  symbol := candidateSymbol rules candidate
  state := build.state
  timestamp := build.timestamp

/-- The run is over: the candidates that the executor does not know wait for it. -/
def publish : Option Market :=
  match w.build with
  | some build =>
    if build.queue = [] then
      some { w with
        build := none
        waiting := w.waiting ++ (build.approved.map (underway rules build)).filter (¬w.Knows ·.key) }
    else none
  | none => none

/-- The executor opens a candidate that waits. -/
def opens (key : String) : Option Market :=
  (w.waiting.find? (·.key = key)).map fun u =>
    { w with
      waiting := w.waiting.filter (·.key ≠ key)
      positions := u.symbol :: w.positions
      openings := ⟨key, w.clock⟩ :: w.openings }

end Market

/-- The events of the system. -/
inductive Label
  | tick (time : ℤ)
  | start (timestamp : ℤ) (source : PyDict)
  | judge (answers : Answers)
  | publish
  /-- The run that is under way fails. -/
  | abandon
  | opens (key : String)
  /-- The executor lets go of a candidate. -/
  | drops (key : String)
  | closes (symbol : String)
  /-- `BOT_STATE` notes a trade. -/
  | trades

/-- One step of the system, where the event can happen. -/
def Market.play (rules : Rules) (w : Market) : Label → Option Market
  | .tick time => if w.clock ≤ time then some { w with clock := time } else none
  | .start timestamp source => w.start rules timestamp source
  | .judge answers => w.judge rules answers
  | .publish => w.publish rules
  | .abandon => some { w with build := none }
  | .opens key => w.opens key
  | .drops key => some { w with waiting := w.waiting.filter (·.key ≠ key) }
  | .closes symbol => some { w with positions := w.positions.erase symbol }
  | .trades => some { w with bot := { w.bot with lastTradeAt := w.clock } }

/-! ## The limits -/

/-- The limits on the entries. -/
structure Capped (rules : Rules) (w : Market) : Prop where
  /-- A run approves one candidate of a symbol. -/
  apart : ∀ build ∈ w.build, (build.approved.map (candidateSymbol rules)).Nodup
  /-- The open positions and what the run approved stay within the limit. -/
  room : ∀ build ∈ w.build,
    (w.positions.length + build.approved.length : ℤ) ≤ w.bot.maxOpenPositions
  /-- The openings are the cooldown apart. -/
  spaced : w.openings.Pairwise fun later earlier =>
    earlier.time + w.bot.cooldownSeconds ≤ later.time

/-- The candidates that a run had in its queue before, and that pass the checks on the answers they
    were judged on. -/
def Build.passed (rules : Rules) (build : Build) : List PyDict :=
  (build.judged.filter fun j =>
    Passes rules j.answers j.candidate build.state build.timestamp).map (·.candidate)

/-- What the guard does not show: the candidates that wait, and those of the run that pass. -/
def Market.unseen (rules : Rules) (w : Market) : ℕ :=
  w.waiting.length + w.build.elim 0 fun build => (build.passed rules).length

/-- An event is heedful if a candidate that passes the checks is of another symbol than those before
    it in the queue that pass, and finds room beside what the guard does not show; and if a candidate
    that is opened was judged with the openings of the last `cooldownSeconds` in `lastTradeAt`. -/
def Heedful (rules : Rules) (w : Market) : Label → Prop
  | .judge answers => ∀ build ∈ w.build, ∀ candidate ∈ build.queue.head?,
      Passes rules answers candidate build.state build.timestamp →
        candidateSymbol rules candidate ∉ (build.passed rules).map (candidateSymbol rules) ∧
        (w.unseen rules ≠ 0 →
          (w.positions.length + w.unseen rules : ℤ) < w.bot.maxOpenPositions)
  | .opens key => ∀ u ∈ w.waiting, u.key = key → ∀ o ∈ w.openings,
      w.clock < o.time + w.bot.cooldownSeconds →
        0 < u.state.lastTradeAt ∧ (o.time : ℚ) ≤ u.state.lastTradeAt
  | _ => True

instance (rules : Rules) (w : Market) (label : Label) : Decidable (Heedful rules w label) :=
  match label with
  | .judge _ => inferInstanceAs (Decidable (∀ build ∈ w.build, ∀ candidate ∈ _, _))
  | .opens _ => inferInstanceAs (Decidable (∀ u ∈ w.waiting, _ → _))
  | .tick _ | .start _ _ | .publish | .abandon | .drops _ | .closes _ | .trades =>
    inferInstanceAs (Decidable True)

/-- No run was made yet. -/
structure Fresh (w : Market) : Prop where
  build : w.build = none
  waiting : w.waiting = []
  openings : w.openings = []
  room : (w.positions.length : ℤ) ≤ w.bot.maxOpenPositions

/-! ## What the exchange shows -/

/-- An answer that shows fewer positions than a limit of five shows all of them. -/
theorem Payload.Shows.lt {payload : Payload} {n openCount : ℕ} (h : payload.Shows n)
    (hcount : getOpenPositionsCount payload = .ok (.ok openCount)) (hfew : openCount < 5) :
    n ≤ openCount := by
  rw [getOpenPositionsCount] at hcount
  split at hcount
  · cases hcount
  rename_i hcode
  obtain ⟨rows, hrows, hlength⟩ := map_eq_ok.1 hcount
  obtain ⟨rows', hrows', hleast, -⟩ := h (not_not.1 hcode)
  rw [hrows] at hrows'
  obtain rfl := Option.some.inj hrows'
  obtain rfl := Except.ok.inj hlength
  omega

variable {rules : Rules} {answers : Answers} {candidate : PyDict} {state : BotState} {timestamp : ℤ}

/-- A candidate only passes with fewer positions open than `BOT_STATE` allows. -/
theorem Passes.lt_max {symbol : String} {positions : List String}
    (h : Passes rules answers candidate state timestamp)
    (hshow : ∀ guards ∈ answers.guards, guards.2.Show symbol positions) :
    (positions.length : ℤ) < state.maxOpenPositions := by
  obtain ⟨guards, hguards, payload, openCount, hall, hcount, hroom⟩ := h.room
  have hpayload : payload ∈ guards.2.all.toOption := by rw [hall]; rfl
  have hshows := (hshow guards hguards).2.1 payload hpayload
  have hmax := state.limits
  rw [max_eq_right hmax.1] at hroom
  have := hshows.lt hcount (by omega)
  omega

/-! ## What the steps keep -/

/-- A copy of `BOT_STATE` that a run made. -/
structure Copied (clock : ℤ) (bot state : BotState) (timestamp : ℤ) : Prop where
  past : timestamp ≤ clock
  maxOpenPositions : state.maxOpenPositions = bot.maxOpenPositions
  cooldownSeconds : state.cooldownSeconds = bot.cooldownSeconds

/-- What heedful steps keep. -/
structure Within (rules : Rules) (w : Market) : Prop where
  /-- The run approves the candidates that pass. -/
  passed : ∀ build ∈ w.build, build.approved.map (candidateSymbol rules) =
    (build.passed rules).map (candidateSymbol rules)
  apart : ∀ build ∈ w.build, ((build.passed rules).map (candidateSymbol rules)).Nodup
  /-- There is room for all that the guard does not show. -/
  room : (w.positions.length + w.unseen rules : ℤ) ≤ w.bot.maxOpenPositions
  spaced : w.openings.Pairwise fun later earlier =>
    earlier.time + w.bot.cooldownSeconds ≤ later.time
  copied : ∀ build ∈ w.build, Copied w.clock w.bot build.state build.timestamp
  cooled : ∀ build ∈ w.build, build.approved ≠ [] → cooldownOk build.state build.timestamp
  waiting : ∀ u ∈ w.waiting, Copied w.clock w.bot u.state u.timestamp ∧ cooldownOk u.state u.timestamp

variable {w w' : Market}

@[simp] theorem unseen_of_none (h : w.build = none) : w.unseen rules = w.waiting.length := by
  simp [Market.unseen, h]

theorem unseen_of_some {build : Build} (h : w.build = some build) :
    w.unseen rules = w.waiting.length + (build.passed rules).length := by
  simp [Market.unseen, h]

theorem passed_append (build : Build) (queue approved : List PyDict) :
    Build.passed rules { build with
        queue := queue, judged := build.judged ++ [⟨candidate, answers⟩], approved := approved } =
      build.passed rules ++
        if Passes rules answers candidate build.state build.timestamp then [candidate] else [] := by
  rw [Build.passed, List.filter_append, List.map_append]
  split <;> rename_i h <;> simp [Build.passed, h]

theorem Fresh.within (h : Fresh w) : Within rules w where
  passed build hb := by simp [h.build] at hb
  apart build hb := by simp [h.build] at hb
  room := by
    have := h.room
    simp [unseen_of_none h.build, h.waiting, this]
  spaced := h.openings ▸ .nil
  copied build hb := by simp [h.build] at hb
  cooled build hb := by simp [h.build] at hb
  waiting u hu := by simp [h.waiting] at hu

namespace Within

theorem capped (h : Within rules w) : Capped rules w where
  apart build hb := h.passed build hb ▸ h.apart build hb
  room build hb := by
    have hroom := h.room
    have hlength := congrArg List.length (h.passed build hb)
    rw [List.length_map, List.length_map] at hlength
    rw [unseen_of_some hb, ← hlength] at hroom
    push_cast at hroom
    omega
  spaced := h.spaced

/-- A run that fails publishes nothing. -/
theorem abandon (h : Within rules w) : Within rules { w with build := none } where
  passed build hb := by cases hb
  apart build hb := by cases hb
  room := by
    have hroom := h.room
    have hunseen : w.waiting.length ≤ w.unseen rules := Nat.le_add_right ..
    rw [unseen_of_none rfl]
    dsimp only
    omega
  spaced := h.spaced
  copied build hb := by cases hb
  cooled build hb := by cases hb
  waiting := h.waiting

/-- Fewer candidates wait. -/
theorem drop (h : Within rules w) {waiting : List Underway} (hsub : waiting.Sublist w.waiting) :
    Within rules { w with waiting := waiting } where
  passed := h.passed
  apart := h.apart
  room := by
    have hroom := h.room
    have hlength := hsub.length_le
    simp only [Market.unseen] at hroom ⊢
    omega
  spaced := h.spaced
  copied := h.copied
  cooled := h.cooled
  waiting u hu := h.waiting u (hsub.subset hu)

theorem tick (h : Within rules w) {time : ℤ} (htime : w.clock ≤ time) :
    Within rules { w with clock := time } where
  passed := h.passed
  apart := h.apart
  room := h.room
  spaced := h.spaced
  copied build hb := { h.copied build hb with past := (h.copied build hb).past.trans htime }
  cooled := h.cooled
  waiting u hu :=
    ⟨{ (h.waiting u hu).1 with past := (h.waiting u hu).1.past.trans htime }, (h.waiting u hu).2⟩

theorem start (h : Within rules w) {timestamp : ℤ} {source : PyDict}
    (hs : w.start rules timestamp source = some w') : Within rules w' := by
  rw [Market.start] at hs
  split at hs
  · rename_i hok
    obtain rfl := Option.some.inj hs
    have hnone : w.build = none := Option.isNone_iff_eq_none.1 hok.1
    have hroom := h.room
    rw [unseen_of_none hnone] at hroom
    refine ⟨fun build hb => ?_, fun build hb => ?_, ?_, h.spaced, fun build hb => ?_,
      fun build hb hne => ?_, h.waiting⟩
    · obtain rfl := Option.some.inj hb
      rfl
    · obtain rfl := Option.some.inj hb
      exact .nil
    · rw [unseen_of_some rfl]
      simpa [Build.passed] using hroom
    · obtain rfl := Option.some.inj hb
      exact ⟨hok.2.1, rfl, rfl⟩
    · obtain rfl := Option.some.inj hb
      exact absurd rfl hne
  · cases hs

/-- A candidate that does not pass is not approved, and changes nothing. -/
theorem refuse (h : Within rules w) {queue : List PyDict} {judged : List Judged}
    {approved : List PyDict}
    (hbuild : w.build = some ⟨timestamp, state, candidate :: queue, judged, approved⟩)
    (hfails : ¬Passes rules answers candidate state timestamp) :
    Within rules { w with
      build := some ⟨timestamp, state, queue, judged ++ [⟨candidate, answers⟩], approved⟩ } := by
  have hsame : Build.passed rules
      ⟨timestamp, state, queue, judged ++ [⟨candidate, answers⟩], approved⟩ =
        Build.passed rules ⟨timestamp, state, candidate :: queue, judged, approved⟩ :=
    (passed_append ⟨timestamp, state, candidate :: queue, judged, approved⟩ queue approved).trans
      (by rw [if_neg hfails, List.append_nil])
  have hcopied := h.copied _ hbuild
  have hcooled := h.cooled _ hbuild
  have hroom := h.room
  rw [unseen_of_some hbuild] at hroom
  refine ⟨fun build hb => ?_, fun build hb => ?_, ?_, h.spaced, fun build hb => ?_,
    fun build hb => ?_, h.waiting⟩
  · obtain rfl := Option.some.inj hb
    exact hsame ▸ h.passed _ hbuild
  · obtain rfl := Option.some.inj hb
    exact hsame ▸ h.apart _ hbuild
  · rw [unseen_of_some rfl, hsame]
    exact hroom
  · obtain rfl := Option.some.inj hb
    exact hcopied
  · obtain rfl := Option.some.inj hb
    exact hcooled

/-- A candidate that passes finds room, and its symbol is new. -/
theorem approves (h : Within rules w) {queue : List PyDict} {judged : List Judged}
    {approved : List PyDict} {checks : PyDict}
    (hbuild : w.build = some ⟨timestamp, state, candidate :: queue, judged, approved⟩)
    (hheed : Heedful rules w (.judge answers))
    (hshow : ∀ guards ∈ answers.guards,
      guards.2.Show (candidateSymbol rules candidate) w.positions)
    (hpasses : Passes rules answers candidate state timestamp) :
    Within rules { w with
      build := some ⟨timestamp, state, queue, judged ++ [⟨candidate, answers⟩],
        approved ++ [approve candidate checks timestamp]⟩ } := by
  have hmore : Build.passed rules
      ⟨timestamp, state, queue, judged ++ [⟨candidate, answers⟩],
        approved ++ [approve candidate checks timestamp]⟩ =
        Build.passed rules ⟨timestamp, state, candidate :: queue, judged, approved⟩ ++ [candidate] :=
    (passed_append ⟨timestamp, state, candidate :: queue, judged, approved⟩ queue _).trans
      (by rw [if_pos hpasses])
  obtain ⟨hnew, hleft⟩ := hheed _ hbuild candidate rfl hpasses
  have hroom := h.room
  have hlive := hpasses.lt_max hshow
  have hcopied := h.copied _ hbuild
  have hmax : state.maxOpenPositions = w.bot.maxOpenPositions := hcopied.maxOpenPositions
  have hsymbol : candidateSymbol rules (approve candidate checks timestamp) =
      candidateSymbol rules candidate := by simp [candidateSymbol, approve]
  rw [unseen_of_some hbuild] at hleft hroom
  refine ⟨fun build hb => ?_, fun build hb => ?_, ?_, h.spaced, fun build hb => ?_,
    fun build hb _ => ?_, h.waiting⟩
  · obtain rfl := Option.some.inj hb
    rw [hmore, List.map_append, List.map_append, List.map_singleton, List.map_singleton, hsymbol,
      h.passed _ hbuild]
  · obtain rfl := Option.some.inj hb
    rw [hmore, List.map_append]
    exact (h.apart _ hbuild).append (List.nodup_singleton _) (List.disjoint_singleton.2 hnew)
  · rw [unseen_of_some rfl, hmore, List.length_append, List.length_singleton]
    dsimp only at hleft hroom ⊢
    push_cast at hleft ⊢
    omega
  · obtain rfl := Option.some.inj hb
    exact hcopied
  · obtain rfl := Option.some.inj hb
    exact hpasses.cooled

theorem judge (h : Within rules w) (hheed : Heedful rules w (.judge answers))
    (hj : w.judge rules answers = some w') : Within rules w' := by
  rw [Market.judge] at hj
  split at hj
  · rename_i timestamp state candidate queue judged approved hbuild
    split at hj
    · rename_i hshow
      split at hj
      · rename_i row passed heval
        obtain rfl := Option.some.inj hj
        cases passed with
        | none =>
          have hfails : ¬Passes rules answers candidate state timestamp := fun hpasses => by
            obtain ⟨approved, happroved⟩ := hpasses.approved
            cases (Prod.mk.inj (Except.ok.inj (heval.symm.trans happroved))).2
          rw [Option.toList_none, List.append_nil]
          exact h.refuse hbuild hfails
        | some candidate' =>
          obtain ⟨hpasses, checks, rfl⟩ := evaluateCandidate_approved heval
          exact h.approves hbuild hheed hshow hpasses
      · obtain rfl := Option.some.inj hj
        exact h.abandon
    · cases hj
  · cases hj

theorem publish (h : Within rules w) (hp : w.publish rules = some w') : Within rules w' := by
  rw [Market.publish] at hp
  split at hp
  · rename_i build hbuild
    split at hp
    · obtain rfl := Option.some.inj hp
      have hroom := h.room
      have hpassed := congrArg List.length (h.passed _ hbuild)
      rw [List.length_map, List.length_map] at hpassed
      -- What was counted as passed is counted as waiting now; candidates known before are not
      -- added.
      rw [unseen_of_some hbuild, ← hpassed] at hroom
      refine ⟨fun _ hb => ?_, fun _ hb => ?_, ?_, h.spaced, fun _ hb => ?_, fun _ hb => ?_,
        fun u hu => ?_⟩
      · cases hb
      · cases hb
      · have hlength := List.length_filter_le (fun u => decide ¬w.Knows u.key)
          (build.approved.map (Market.underway rules build))
        rw [List.length_map] at hlength
        rw [unseen_of_none rfl]
        dsimp only
        rw [List.length_append]
        push_cast at hroom ⊢
        omega
      · cases hb
      · cases hb
      · rcases List.mem_append.1 hu with hu | hu
        · exact h.waiting u hu
        · obtain ⟨candidate, hc, rfl⟩ := List.mem_map.1 (List.mem_filter.1 hu).1
          exact ⟨h.copied _ hbuild, h.cooled _ hbuild (List.ne_nil_of_mem hc)⟩
    · cases hp
  · cases hp

/-- A candidate that is opened was judged a cooldown after each opening that its `BOT_STATE`
    knew. -/
theorem opens (h : Within rules w) {key : String} (hheed : Heedful rules w (.opens key))
    (ho : w.opens key = some w') : Within rules w' := by
  rw [Market.opens] at ho
  obtain ⟨u, hfind, rfl⟩ := Option.map_eq_some_iff.1 ho
  have hu := List.mem_of_find?_eq_some hfind
  have hkey : u.key = key := by simpa using List.find?_some hfind
  obtain ⟨hcopied, hcooled⟩ := h.waiting u hu
  have hroom := h.room
  have hfewer : (w.waiting.filter (·.key ≠ key)).length < w.waiting.length :=
    List.length_filter_lt_length_iff_exists.2 ⟨u, hu, by simp [hkey]⟩
  refine ⟨h.passed, h.apart, ?_, List.pairwise_cons.2 ⟨fun o hmem => ?_, h.spaced⟩, h.copied, h.cooled,
    fun v hv => h.waiting v (List.mem_of_mem_filter hv)⟩
  · simp only [Market.unseen] at hroom ⊢
    rw [List.length_cons]
    push_cast at hroom ⊢
    omega
  · by_contra hsoon
    -- The cooldown was checked against a state that knew of the earlier opening.
    obtain ⟨htrade, hknown⟩ := hheed u hu hkey o hmem (not_le.1 hsoon)
    have hcool := cooldownOk_iff.1 hcooled htrade
    have hmax := le_max_right 0 u.state.cooldownSeconds
    have htime : o.time + u.state.cooldownSeconds ≤ u.timestamp := by
      have : (o.time + u.state.cooldownSeconds : ℚ) ≤ u.timestamp := by
        have : (u.state.cooldownSeconds : ℚ) ≤ (max 0 u.state.cooldownSeconds : ℤ) := by
          exact_mod_cast hmax
        linarith
      exact_mod_cast this
    have := hcopied.past
    have := hcopied.cooldownSeconds
    dsimp only at hsoon
    omega

theorem closes (h : Within rules w) (symbol : String) :
    Within rules { w with positions := w.positions.erase symbol } where
  passed := h.passed
  apart := h.apart
  room := by
    have hroom := h.room
    have hlength := (w.positions.erase_sublist (a := symbol)).length_le
    simp only [Market.unseen] at hroom ⊢
    omega
  spaced := h.spaced
  copied := h.copied
  cooled := h.cooled
  waiting := h.waiting

theorem trades (h : Within rules w) :
    Within rules { w with bot := { w.bot with lastTradeAt := w.clock } } where
  passed := h.passed
  apart := h.apart
  room := h.room
  spaced := h.spaced
  copied build hb := ⟨(h.copied build hb).past, (h.copied build hb).maxOpenPositions,
    (h.copied build hb).cooldownSeconds⟩
  cooled := h.cooled
  waiting u hu := ⟨⟨(h.waiting u hu).1.past, (h.waiting u hu).1.maxOpenPositions,
    (h.waiting u hu).1.cooldownSeconds⟩, (h.waiting u hu).2⟩

/-- A heedful step keeps to the limits. -/
theorem play (h : Within rules w) {label : Label} (hheed : Heedful rules w label)
    (hplay : w.play rules label = some w') : Within rules w' := by
  cases label with
  | tick time =>
    rw [Market.play] at hplay
    split at hplay
    · rename_i htime
      exact Option.some.inj hplay ▸ h.tick htime
    · cases hplay
  | start timestamp source => exact h.start hplay
  | judge answers => exact h.judge hheed hplay
  | publish => exact h.publish hplay
  | abandon => exact Option.some.inj hplay ▸ h.abandon
  | opens key => exact h.opens hheed hplay
  | drops key => exact Option.some.inj hplay ▸ h.drop List.filter_sublist
  | closes symbol => exact Option.some.inj hplay ▸ h.closes symbol
  | trades => exact Option.some.inj hplay ▸ h.trades

end Within

/-- The limits on the entries hold in every run of heedful steps. -/
theorem entries_capped (hstart : Fresh w)
    (hrun : RunsBy (Market.play rules) (Heedful rules) w w') : Capped rules w' :=
  (hrun.keeps (fun h hheed hplay => h.play hheed hplay) hstart.within).capped

/-! ## Runs of given events -/

/-- A run with nothing in between approves what `judgeAll` approves. -/
theorem playAll_judge {answers : ℕ → Answers} {queue done rows approved : List PyDict}
    {judged : List Judged} (hbuild : w.build = some ⟨timestamp, state, queue, judged, done⟩)
    (hshow : ∀ n, ∀ candidate ∈ queue, ∀ guards ∈ (answers n).guards,
      guards.2.Show (candidateSymbol rules candidate) w.positions)
    (h : judgeAll rules answers state timestamp queue = .ok (rows, approved)) :
    ∃ judged', playAll (Market.play rules) w
        ((List.range queue.length).map fun n => .judge (answers n)) =
      some { w with build := some ⟨timestamp, state, [], judged', done ++ approved⟩ } := by
  induction queue generalizing w answers done judged rows approved with
  | nil =>
    obtain ⟨rfl, rfl⟩ := Prod.mk.inj (Except.ok.inj h)
    refine ⟨judged, ?_⟩
    rw [List.append_nil, ← hbuild]
    rfl
  | cons candidate queue ih =>
    rw [judgeAll] at h
    obtain ⟨first, heval, h⟩ := bind_eq_ok.1 h
    obtain ⟨rest, hrest, h⟩ := bind_eq_ok.1 h
    obtain ⟨-, rfl⟩ := Prod.mk.inj (pure_eq_ok.1 h)
    -- The first candidate is judged on the first answers, the queue behind it on those after.
    let build : Build :=
      ⟨timestamp, state, queue, judged ++ [⟨candidate, answers 0⟩], done ++ first.2.toList⟩
    have hplay : w.play rules (.judge (answers 0)) = some { w with build := some build } := by
      rw [Market.play, Market.judge, hbuild]
      dsimp only
      rw [if_pos (hshow 0 candidate List.mem_cons_self), heval]
    obtain ⟨judged', hlater⟩ := ih (w := { w with build := some build }) rfl
      (fun n c hc => hshow (n + 1) c (List.mem_cons_of_mem _ hc)) hrest
    refine ⟨judged', ?_⟩
    rw [List.length_cons, List.range_succ_eq_map, List.map_cons, List.map_map, playAll, hplay,
      ← List.append_assoc]
    exact hlater

/-- What `judgeAll` approves keeps to the limits, where its steps are heedful. -/
theorem judgeAll_capped {answers : ℕ → Answers} {queue rows approved : List PyDict}
    (h : Within rules w) (hbuild : w.build = some ⟨timestamp, state, queue, [], []⟩)
    (hshow : ∀ n, ∀ candidate ∈ queue, ∀ guards ∈ (answers n).guards,
      guards.2.Show (candidateSymbol rules candidate) w.positions)
    (hheed : AllBy (Market.play rules) (Heedful rules) w
      ((List.range queue.length).map fun n => .judge (answers n)))
    (hjudge : judgeAll rules answers state timestamp queue = .ok (rows, approved)) :
    (approved.map (candidateSymbol rules)).Nodup ∧
      (w.positions.length + approved.length : ℤ) ≤ w.bot.maxOpenPositions := by
  obtain ⟨judged, hplay⟩ := playAll_judge hbuild hshow hjudge
  have hwithin := (RunsBy.of_playAll hheed hplay).keeps
    (fun h hheed hplay => Within.play h hheed hplay) h
  exact ⟨hwithin.capped.apart _ rfl, hwithin.capped.room _ rfl⟩

/-- The rules of the example. -/
def exampleRules : Rules where
  repr _ := ""
  maxCandidateAgeSeconds := 1200
  restricted _ := false

/-- Nothing objects to an entry, and no position is open. -/
def exampleAnswers : Answers :=
  let gate : Gate := ⟨true, "", .none⟩
  let payload : Payload := ⟨0, "OK", []⟩
  { daily := some (.ok [("ok", .bool true)])
    guards := some (⟨gate, gate, gate, []⟩, ⟨.ok payload, .ok payload, .ok payload⟩) }

/-- A confirmed candidate for a long entry. -/
def exampleCandidate (key : String) : PyDict :=
  [("candidateKey", .str key), ("symbol", .str "BTCUSDT"), ("side", .str "Buy"), ("grade", .str "A"),
    ("riskStatus", .str "PENDING_RISK"), ("positionSizingStatus", .str "NOT_EVALUATED_STEP8"),
    ("orderSubmitted", .bool false), ("createdAt", .int 1000)]

/-- The confirmed entries of Step 6. -/
def exampleSource (queue : List PyDict) : PyDict :=
  [("status", .str "ready"), ("confirmedEntryQueue", .list (queue.map .dict))]

/-- One position is allowed, and the cooldown is five minutes. -/
def exampleMarket : Market where
  clock := 1000
  bot := ⟨true, 1, 300, 0, by decide⟩
  build := none
  waiting := []
  positions := []
  openings := []

theorem exampleMarket_fresh : Fresh exampleMarket := ⟨rfl, rfl, rfl, by decide⟩

/-- Two candidates of one symbol. -/
def exampleTwins : List PyDict := [exampleCandidate "BTCUSDT-1", exampleCandidate "BTCUSDT-2"]

/-- Where two positions are allowed, a run refuses the second candidate of a symbol and approves two
    others, which are opened five minutes apart. -/
theorem entries_capped_pair : ∃ w, w.openings.map (·.key) = ["ETHUSDT-1", "BTCUSDT-1"] ∧
    w.positions = ["ETHUSDT", "BTCUSDT"] ∧ Capped exampleRules w := by
  let start : Market := { exampleMarket with bot := ⟨true, 2, 300, 0, by decide⟩ }
  let queue := exampleTwins ++ [(exampleCandidate "ETHUSDT-1").update [("symbol", .str "ETHUSDT")]]
  let locked : Answers :=
    { exampleAnswers with daily := some (.ok [("ok", .bool true), ("blocked", .bool true)]) }
  let labels : List Label :=
    [.start 1000 (exampleSource queue), .judge exampleAnswers, .judge locked, .judge exampleAnswers,
      .publish, .opens "BTCUSDT-1", .trades, .tick 1300, .opens "ETHUSDT-1"]
  have hplay : (playAll (Market.play exampleRules) start labels).any fun w =>
      w.openings.map (·.key) = ["ETHUSDT-1", "BTCUSDT-1"] ∧ w.positions = ["ETHUSDT", "BTCUSDT"] := by
    decide +kernel
  have hheed : AllBy (Market.play exampleRules) (Heedful exampleRules) start labels := by
    decide +kernel
  obtain ⟨w, hw, hopened⟩ := (Option.any_eq_true _ _).1 hplay
  obtain ⟨hopenings, hpositions⟩ := of_decide_eq_true hopened
  exact ⟨w, hopenings, hpositions,
    entries_capped ⟨rfl, rfl, rfl, by decide⟩ (.of_playAll hheed hw)⟩

/-- A run approves two candidates of one symbol where one position is allowed, and both are
    opened at once. -/
theorem entries_not_capped : ∃ w w', Runs (Market.play exampleRules) exampleMarket w ∧
    (∃ build ∈ w.build, ¬(build.approved.map (candidateSymbol exampleRules)).Nodup ∧
      w.bot.maxOpenPositions < (w.positions.length + build.approved.length : ℤ)) ∧
    Runs (Market.play exampleRules) exampleMarket w' ∧
    (¬w'.openings.Pairwise fun later earlier =>
      earlier.time + w'.bot.cooldownSeconds ≤ later.time) ∧
    ¬∀ market market', Fresh market → Runs (Market.play exampleRules) market market' →
      Capped exampleRules market' := by
  -- Two candidates of one symbol are judged on the same answers: neither sees the other.
  let judged : List Label :=
    [.start 1000 (exampleSource exampleTwins), .judge exampleAnswers, .judge exampleAnswers]
  have hjudged : (playAll (Market.play exampleRules) exampleMarket judged).any fun w =>
      ∃ build ∈ w.build, ¬(build.approved.map (candidateSymbol exampleRules)).Nodup ∧
        w.bot.maxOpenPositions < (w.positions.length + build.approved.length : ℤ) := by
    decide +kernel
  have hopened : (playAll (Market.play exampleRules) exampleMarket
      (judged ++ [.publish, .opens "BTCUSDT-1", .opens "BTCUSDT-2"])).any fun w =>
        ¬w.openings.Pairwise fun later earlier =>
          earlier.time + w.bot.cooldownSeconds ≤ later.time := by
    decide +kernel
  obtain ⟨w, hw, hexceeds⟩ := (Option.any_eq_true _ _).1 hjudged
  obtain ⟨w', hw', hclose⟩ := (Option.any_eq_true _ _).1 hopened
  have hexceeds := of_decide_eq_true hexceeds
  refine ⟨w, w', .of_playAll hw, hexceeds, .of_playAll hw', of_decide_eq_true hclose,
    fun hcapped => ?_⟩
  obtain ⟨build, hb, hsame, -⟩ := hexceeds
  exact hsame ((hcapped _ _ exampleMarket_fresh (.of_playAll hw)).apart build hb)

end IntradayBot.Entry
