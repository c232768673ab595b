import IntradayBot.Entry.Contract
import IntradayBot.Entry.Safety
import IntradayBot.Setup.QueuedOnce

/-!
# From the queue to Node

What the scan queues goes through Entry Safety, leaves Python as a payload and is taken in by Node.
Entry Safety finds the identity and the stage of a queued candidate in order, so that the candidate
is approved if it passes the checks that ask about the state of the account (`approved_iff`). And
Node accepts the payload of every queued candidate that is approved, if its price does not round to
nothing (`approved_accepted_iff`).
-/

namespace IntradayBot.Setup

open Accuracy PyText
open Entry (Rules Answers BotState Confirmed evaluateCandidate candidateSymbol handoffPayload)
open Node (Memory)

/-! ## What is queued -/

section

variable {es : List Event} {c : Candidate}

/-- The symbol of a classified row is plain. -/
theorem ClassifiedIn.plainSymbol {row : SetupRow} {setup : ClassifiedSetup}
    (h : ClassifiedIn es row setup) : PlainSymbol row.symbol := by
  obtain ⟨before, timestamp, force, b, hourTimestamp, hour, after, rfl, watch, hwatch, hby⟩ := h
  obtain ⟨e, -, timestamp', b', -, hqualifies⟩ := hwatch
  have hplain := hqualifies.plainSymbol
  rw [hby.symbol, hplain.1]
  exact hplain

/-- What a queued candidate is, for those that it is handed to. -/
structure Queued (c : Candidate) : Prop where
  plain : PlainSymbol c.symbol
  symbol : c.symbol ≠ ""
  strategy : c.strategy ≠ ""
  side : c.side = .buy ∨ c.side = .sell
  grade : c.grade = .aPlus ∨ c.grade = .a
  key : c.candidateKey = candidateKey c.symbol c.setupFifteenMinuteCandleTime
    c.entryFiveMinuteCandleTime c.side c.strategy

theorem ConfirmedIn.queued (h : ConfirmedIn es c) : Queued c := by
  obtain ⟨before, timestamp, force, b, after, rfl, -, -, -, row, setup, bar, hrow, -, hby⟩ := h
  have hplain := hrow.plainSymbol
  have hsymbol : c.symbol = Json.upperCase row.symbol := congrArg Candidate.symbol hby.built
  have hstrategy : c.strategy = setup.strategy := congrArg Candidate.strategy hby.built
  have hkey := congrArg Candidate.candidateKey hby.built
  dsimp only [candidateOf] at hkey
  refine ⟨?_, hby.identified.1, hby.identified.2, ?_, hby.graded.2, ?_⟩
  · rw [hsymbol, hplain.1]
    exact hplain
  · exact hby.favorable.imp And.left And.left
  · rw [hsymbol, hstrategy]
    exact hkey

end

variable {c : Candidate}

/-! ## Texts -/

theorem not_blank_of_isAlphanum {a : Char} (h : a.isAlphanum) :
    isSpace a = false ∧ Json.isBlank a = false := by
  have hall : ∀ n ∈ List.range 128, (Char.ofNat n).isAlphanum →
      isSpace (Char.ofNat n) = false ∧ Json.isBlank (Char.ofNat n) = false := by decide +kernel
  exact char_forall (P := fun a => a.isAlphanum → isSpace a = false ∧ Json.isBlank a = false) hall
    (List.mem_range.2 (isAlphanum_ascii h).1) h

theorem strip_of_bare {s : String} (h : Bare isSpace s.toList) : strip s = s := by
  have htrim : stripChars s.toList = s.toList := h.trimBy_eq
  rw [strip, htrim, String.ofList_toList]

/-- The name of the engine does not end with a blank. -/
def NeatEnd (s : String) : Prop :=
  ∀ a ∈ s.toList.getLast?, isSpace a = false ∧ Json.isBlank a = false

instance (s : String) : Decidable (NeatEnd s) :=
  decidable_of_iff (s.toList.getLast?.all fun a => !isSpace a && !Json.isBlank a) (by
    simp [NeatEnd, Option.all_eq_true])

theorem Queued.bare (hc : Queued c) (hend : NeatEnd c.strategy) {p : Char → Bool}
    (hp : ∀ a, isSpace a = false ∧ Json.isBlank a = false → p a = false) :
    Bare p c.candidateKey.toList ∧ Bare p c.symbol.toList := by
  have hplain : ∀ a ∈ c.symbol.toList, ¬p a := fun a ha => by
    simp [hp a (not_blank_of_isAlphanum (hc.plain.2 a ha))]
  refine ⟨⟨?_, ?_⟩, .of_forall hplain⟩
  · obtain ⟨rest, hrest⟩ := toList_candidateKey c.symbol c.setupFifteenMinuteCandleTime
      c.entryFiveMinuteCandleTime c.side c.strategy
    rw [hc.key, hrest]
    have hne : c.symbol.toList ≠ [] := fun h => hc.symbol (String.toList_inj.1 h)
    intro a ha
    rw [List.head?_append_of_ne_nil _ hne] at ha
    exact hplain a (List.mem_of_mem_head? ha)
  · have hne : c.strategy.toList ≠ [] := fun h => hc.strategy (String.toList_inj.1 h)
    have hlast : c.candidateKey.toList.getLast? = c.strategy.toList.getLast? := by
      rw [hc.key]
      simp only [candidateKey, String.toList_append]
      exact List.getLast?_append_of_ne_nil _ hne
    rw [hlast]
    intro a ha
    simp [hp a (hend a ha)]

/-! ## Entry Safety -/

variable {rules : Rules} {answers : Answers} {state : BotState} {timestamp : ℤ}

/-- A text that is not empty, as Python reads it. -/
theorem textOrEmpty_pyStr (repr : PyValue → String) (s : String) :
    (PyValue.str s).textOrEmpty repr = s := by
  by_cases hs : s = "" <;> simp [PyValue.textOrEmpty, PyValue.truthy, PyValue.text, hs]

theorem Queued.candidateKey_ne (hc : Queued c) : c.candidateKey ≠ "" := by
  intro h
  obtain ⟨rest, hrest⟩ := toList_candidateKey c.symbol c.setupFifteenMinuteCandleTime
    c.entryFiveMinuteCandleTime c.side c.strategy
  rw [hc.key] at h
  rw [h] at hrest
  simp at hrest

theorem Queued.side_mem (hc : Queued c) : signalText c.side ∈ ["Buy", "Sell"] := by
  rcases hc.side with h | h <;> rw [h] <;> decide

theorem Queued.grade_mem (hc : Queued c) : c.grade.text ∈ ["A+", "A"] := by
  rcases hc.grade with h | h <;> rw [h] <;> decide

theorem candidateSymbol_toDict (hc : Queued c) : candidateSymbol rules c.toDict = c.symbol := by
  have hget : c.toDict.get "symbol" = .str c.symbol := rfl
  rw [candidateSymbol, hget, textOrEmpty_pyStr, hc.plain.1]

/-- Entry Safety finds the identity and the stage of a queued candidate in order. -/
theorem Queued.confirmed (hc : Queued c) : Confirmed rules c.toDict := by
  have hkey : c.toDict.get "candidateKey" = .str c.candidateKey := rfl
  have hside : c.toDict.get "side" = .str (signalText c.side) := rfl
  have hgrade : c.toDict.get "grade" = .str c.grade.text := rfl
  refine ⟨?_, ?_, ?_, ?_, rfl, rfl⟩
  · rw [hkey, textOrEmpty_pyStr]
    exact hc.candidateKey_ne
  · rw [candidateSymbol_toDict hc]
    exact hc.symbol
  · rw [hside, textOrEmpty_pyStr]
    exact hc.side_mem
  · rw [hgrade, textOrEmpty_pyStr]
    exact hc.grade_mem

/-- A candidate that Entry Safety approves. -/
def Approves (rules : Rules) (answers : Answers) (c : Candidate) (state : BotState)
    (timestamp : ℤ) (approved : PyDict) : Prop :=
  ∃ row, evaluateCandidate rules answers c.toDict state timestamp = .ok (row, some approved)

/-- Of a queued candidate, Entry Safety asks whether it is fresh, and about the account. -/
theorem approved_iff (log1p : ℚ → ℚ) (es : List Event) (rules : Rules) (answers : Answers)
    (state : BotState) (timestamp : ℤ) :
    ∀ c ∈ (run log1p es).five.content.confirmedEntryQueue,
      (∃ approved, Approves rules answers c state timestamp approved) ↔
        (∃ createdAt, Entry.number (.int c.createdAt) 0 = .ok createdAt ∧
          Entry.ageSeconds (Entry.truncate createdAt) timestamp ≤ rules.maxCandidateAgeSeconds) ∧
        rules.restricted c.symbol = false ∧
        (∃ answer, answers.daily = some answer ∧ Entry.dailyAllowed (Entry.dailyReport answer)) ∧
        (∃ guards, answers.guards = some guards ∧
          ((Entry.positionReport rules guards c.toDict state).get "ok").truthy) ∧
        Entry.cooldownOk state timestamp := by
  intro c hc
  have hqueued := ((kept_run log1p es).five.content.confirmed c hc).queued
  have hstrip : strip c.symbol = c.symbol := strip_of_bare <| .of_forall fun a ha => by
    simp [(not_blank_of_isAlphanum (hqueued.plain.2 a ha)).1]
  have hcreated : c.toDict.get "createdAt" = .int c.createdAt := rfl
  constructor
  · rintro ⟨approved, row, h⟩
    obtain ⟨hpasses, -⟩ := Entry.evaluateCandidate_approved h
    have hunrestricted := hpasses.unrestricted
    rw [candidateSymbol_toDict hqueued, hstrip] at hunrestricted
    exact ⟨hcreated ▸ hpasses.fresh, hunrestricted, hpasses.daily, hpasses.guarded, hpasses.cooled⟩
  · rintro ⟨hfresh, hunrestricted, hdaily, hguarded, hcooled⟩
    have hpasses : Entry.Passes rules answers c.toDict state timestamp := by
      refine ⟨hqueued.confirmed, hcreated ▸ hfresh, ?_, hdaily, hguarded, hcooled⟩
      rw [candidateSymbol_toDict hqueued, hstrip]
      exact hunrestricted
    obtain ⟨approved, happroved⟩ := hpasses.approved
    exact ⟨approved, approved, happroved⟩

/-- Nothing objects to an entry. -/
def exampleAnswers : Answers :=
  let gate : Entry.Gate := ⟨true, "", .none⟩
  let payload : Entry.Payload := ⟨0, "OK", []⟩
  { daily := some (.ok [("ok", .bool true)])
    guards := some (⟨gate, gate, gate, []⟩, ⟨.ok payload, .ok payload, .ok payload⟩) }

/-- Two positions are allowed, and none was opened yet. -/
def exampleState : BotState := ⟨true, 2, 300, 0, by decide⟩

/-- No symbol is excluded. -/
def exampleRules : Rules where
  repr _ := ""
  maxCandidateAgeSeconds := 1200
  restricted _ := false

theorem approved_iff_example : ∃ c ∈ (run id exampleEvents).five.content.confirmedEntryQueue,
    ∃ approved, Approves exampleRules exampleAnswers c exampleState 360310 approved := by
  obtain ⟨c, hc, -⟩ := List.mem_map.1 (exampleEvents_queue ▸ List.mem_singleton_self _)
  have hpasses : ∀ c ∈ (run id exampleEvents).five.content.confirmedEntryQueue,
      Entry.Passes exampleRules exampleAnswers c.toDict exampleState 360310 := by decide +kernel
  obtain ⟨-, hfresh, -, hdaily, hguarded, hcooled⟩ := hpasses c hc
  exact ⟨c, hc, (approved_iff id exampleEvents exampleRules exampleAnswers exampleState 360310 c
    hc).2 ⟨hfresh, rfl, hdaily, hguarded, hcooled⟩⟩

/-! ## Node -/

section

variable {checks : PyDict}

/-- The fields that the approval writes. -/
def approvalFields : List String :=
  ["riskStatus", "riskPolicyId", "riskDecisionAt", "riskApproved", "riskSizeFactor", "riskFlags",
    "riskDecision", "positionSizingStatus", "executionStatus", "orderSubmitted"]

/-- The approval leaves the other fields as they were. -/
theorem get_approve (candidate : PyDict) {k : String} (hk : k ∉ approvalFields) :
    (Entry.approve candidate checks timestamp).get k = candidate.get k := by
  simp only [approvalFields, List.mem_cons, List.not_mem_nil, or_false, not_or] at hk
  simp [Entry.approve, ne_comm.1 hk.1, ne_comm.1 hk.2.1, ne_comm.1 hk.2.2.1, ne_comm.1 hk.2.2.2.1,
    ne_comm.1 hk.2.2.2.2.1, ne_comm.1 hk.2.2.2.2.2.1, ne_comm.1 hk.2.2.2.2.2.2.1,
    ne_comm.1 hk.2.2.2.2.2.2.2.1, ne_comm.1 hk.2.2.2.2.2.2.2.2.1,
    ne_comm.1 hk.2.2.2.2.2.2.2.2.2]

/-- What the approval writes of the fields that the handoff checks. -/
theorem approve_checked (checks : PyDict) (timestamp : ℤ) (candidate : PyDict) :
    ((Entry.approve candidate checks timestamp).get "riskApproved").isTrue ∧
      ((Entry.approve candidate checks timestamp).get "riskStatus").isText "APPROVED_RISK" ∧
      ((Entry.approve candidate checks timestamp).get "orderSubmitted").isFalse := by
  simp [Entry.approve, PyValue.isTrue, PyValue.isText, PyValue.isFalse]

/-- What the payload of a queued candidate that was approved tells Node. -/
theorem Queued.payload (hc : Queued c) (hend : NeatEnd c.strategy) (repr : PyValue → String)
    (checks : PyDict) (timestamp : ℤ) :
    Entry.candidateKeyOf repr (Entry.approve c.toDict checks timestamp) = c.candidateKey ∧
      Entry.symbolOf repr (Entry.approve c.toDict checks timestamp) = c.symbol ∧
      handoffPayload repr (Entry.approve c.toDict checks timestamp) =
        .ok (if 0 < c.entryReference then
          .ok (Entry.payloadOf repr (Entry.approve c.toDict checks timestamp))
        else .error "entryReference must be positive") := by
  have hbare := hc.bare hend (p := isSpace) fun a ha => ha.1
  have hget : ∀ k, k ∉ approvalFields →
      (Entry.approve c.toDict checks timestamp).get k = c.toDict.get k :=
    fun k hk => get_approve c.toDict hk
  obtain ⟨happroved, hstatus, hunsubmitted⟩ := approve_checked checks timestamp c.toDict
  generalize Entry.approve c.toDict checks timestamp = approved at *
  have hkeyget : approved.get "candidateKey" = .str c.candidateKey := hget _ (by decide)
  have hsymbolget : approved.get "symbol" = .str c.symbol := hget _ (by decide)
  have hside : approved.get "side" = .str (signalText c.side) := hget _ (by decide)
  have hgrade : approved.get "grade" = .str c.grade.text := hget _ (by decide)
  have hentry : approved.get "entryReference" = .float (.finite c.entryReference) :=
    hget _ (by decide)
  have hkey : Entry.candidateKeyOf repr approved = c.candidateKey := by
    rw [Entry.candidateKeyOf, hkeyget, textOrEmpty_pyStr, strip_of_bare hbare.1]
  have hsymbol : Entry.symbolOf repr approved = c.symbol := by
    rw [Entry.symbolOf, hsymbolget, textOrEmpty_pyStr, strip_of_bare hbare.2, hc.plain.1]
  refine ⟨hkey, hsymbol, ?_⟩
  rw [handoffPayload, if_neg (by simp [happroved, hstatus]), hgrade, textOrEmpty_pyStr,
    if_neg (not_not.2 hc.grade_mem), if_neg (not_not.2 hunsubmitted), hkey, hsymbol, hside,
    textOrEmpty_pyStr, if_neg, hentry]
  · simp [Entry.positive, PyValue.float?, Double.positive, Except.map]
  · simp [hc.candidateKey_ne, hc.symbol, hc.side_mem]

/-- The payload of a queued candidate is read as JSON, and Node takes it in. -/
theorem Queued.accepted (hc : Queued c) (hend : NeatEnd c.strategy) (repr : PyValue → String)
    (hpos : 0 < c.entryReference) {m : Memory} (hm : m.direct.get? c.candidateKey = none) :
    Entry.Accepted (Entry.payloadOf repr (Entry.approve c.toDict checks timestamp)) m := by
  obtain ⟨hkey, hsymbol, hpayload⟩ := hc.payload hend repr checks timestamp
  rw [if_pos hpos] at hpayload
  obtain ⟨-, hexecutable⟩ := Entry.handoffPayload_eq_ok hpayload
  have hfinite : (PyValue.fieldsToJson
      (Entry.payloadOf repr (Entry.approve c.toDict checks timestamp))).isSome := by
    refine (Entry.payload_isSome repr _).2 ⟨fun k hk => ?_, ?_⟩
    · have hcopied : ∀ k ∈ Entry.copied, k ∉ approvalFields ∧ (c.toDict.get k).finite := by
        simp [Entry.copied, approvalFields, Candidate.toDict, PyDict.get_cons, PyValue.finite]
      rw [get_approve _ (hcopied k hk).1]
      exact (hcopied k hk).2
    · rw [get_approve _ (by decide)]
      rfl
  obtain ⟨l, hl⟩ := Option.isSome_iff_exists.1 hfinite
  refine ⟨.obj l, by rw [PyValue.toJson, hl, Option.map_some], ?_⟩
  have hblank := hc.bare hend (p := Json.isBlank) fun a ha => ha.2
  have htrim : Json.trim c.candidateKey = c.candidateKey := Entry.trim_eq_self_iff.2 hblank.1
  refine (Entry.accepts_received (Entry.received hl) hexecutable ?_).2 ⟨?_, ?_, ?_⟩
  · rw [hkey, htrim]
    exact hm
  · rw [hkey, htrim]
  · rw [hsymbol, Entry.trim_eq_self_iff.2 hblank.2]
    exact hc.symbol
  · refine ⟨c.entryReference, ?_, hpos⟩
    rw [get_approve _ (by decide)]
    rfl

end

/-- Of a queued candidate that Entry Safety approved, the payload leaves Python and is accepted by a
    Node that does not know it, if its price does not round to nothing; else there is none. -/
theorem approved_accepted_iff (log1p : ℚ → ℚ) (es : List Event) (rules : Rules) (answers : Answers)
    (state : BotState) (timestamp : ℤ) (m : Memory) :
    ∀ c ∈ (run log1p es).five.content.confirmedEntryQueue, NeatEnd c.strategy →
      m.direct.get? c.candidateKey = none → ∀ approved,
        Approves rules answers c state timestamp approved →
          ((∃ payload, handoffPayload rules.repr approved = .ok (.ok payload) ∧
            Entry.Accepted payload m) ↔ 0 < c.entryReference) := by
  rintro c hc hend hm approved ⟨row, happroved⟩
  have hqueued := ((kept_run log1p es).five.content.confirmed c hc).queued
  obtain ⟨-, checks, rfl⟩ := Entry.evaluateCandidate_approved happroved
  obtain ⟨-, -, hpayload⟩ := hqueued.payload hend rules.repr checks timestamp
  rw [hpayload]
  constructor
  · rintro ⟨payload, h, -⟩
    by_contra hpos
    rw [if_neg hpos] at h
    cases h
  · intro hpos
    rw [if_pos hpos]
    exact ⟨_, rfl, hqueued.accepted hend rules.repr hpos hm⟩

/-- A candidate goes all the way. -/
theorem approved_accepted_example : ∃ c ∈ (run id exampleEvents).five.content.confirmedEntryQueue,
    ∃ approved payload, Approves exampleRules exampleAnswers c exampleState 360310 approved ∧
      handoffPayload exampleRules.repr approved = .ok (.ok payload) ∧
      Entry.Accepted payload Node.HybridRepository.emptyWorld.mem := by
  have hqueue : ∀ c ∈ (run id exampleEvents).five.content.confirmedEntryQueue,
      NeatEnd c.strategy ∧ 0 < c.entryReference ∧
        Entry.Passes exampleRules exampleAnswers c.toDict exampleState 360310 := by decide +kernel
  obtain ⟨c, hc, -⟩ := List.mem_map.1 (exampleEvents_queue ▸ List.mem_singleton_self _)
  obtain ⟨hend, hpos, hpasses⟩ := hqueue c hc
  obtain ⟨approved, happroved⟩ := hpasses.approved
  obtain ⟨payload, hpayload, haccepted⟩ := (approved_accepted_iff id exampleEvents exampleRules
    exampleAnswers exampleState 360310 Node.HybridRepository.emptyWorld.mem c hc hend rfl approved
    ⟨_, happroved⟩).2 hpos
  exact ⟨c, hc, approved, payload, ⟨_, happroved⟩, hpayload, haccepted⟩

end IntradayBot.Setup
