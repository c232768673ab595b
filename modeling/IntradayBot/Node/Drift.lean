import IntradayBot.Coop.Trace
import IntradayBot.Node.Executor
import IntradayBot.Node.SizedPlan

/-!
# Age and drift at submission

A candidate is sized twice before its order is sent, and each time its age and the drift of
the price are checked. The first sizing replaces the reference that the drift is measured
from by the mark that it read (`get_entryReference_sized`), so that the second one only
bounds the drift between the two. Where the price turns in between (`Turns`), the last mark is
still within the bound of the first reference; where it moves on, it is so just when the two
moves add up to no more than the bound (`AddUp`).

The marks that an attempt read are those of its trace (`tickerSeen`). An attempt that waits
leaves the command as it was (`Attempts`).
-/

namespace IntradayBot.Node

open Coop LiveSizer

namespace LiveSizer

variable {payload : Json} {truth : Truth} {config : Config} {nowSeconds : ℕ}

/-- A sized payload is measured from the mark that it was sized at. -/
theorem get_entryReference_sized (x : Plan) :
    (x.sized payload truth nowSeconds).get "entryReference" = some (.num x.mark) := by
  simp [Plan.sized, sizedProps]

/-- It is for the same symbol. -/
theorem get_symbol_sized (x : Plan) :
    (x.sized payload truth nowSeconds).get "symbol" = payload.get "symbol" := by
  simp [Plan.sized, sizedProps]

/-- Its age is that of the candidate. -/
theorem created_sized (x : Plan) :
    candidateCreatedSeconds (x.sized payload truth nowSeconds) = candidateCreatedSeconds payload := by
  have hcreated : (x.sized payload truth nowSeconds).get "createdAt" = payload.get "createdAt" := by
    simp [Plan.sized, sizedProps]
  have hrisk : (x.sized payload truth nowSeconds).get "riskDecisionAt" =
      payload.get "riskDecisionAt" := by simp [Plan.sized, sizedProps]
  rw [candidateCreatedSeconds, candidateCreatedSeconds, hcreated, hrisk]

end LiveSizer

namespace Executor

/-! ## What is read of the market -/

/-- The clock at an event. -/
def clock : Event Memory JsError Op.Val → ℕ
  | .sync m => m.now
  | .call m _ _ => m.now

/-- The tickers that an answer shows, and when. -/
def tickerSeen : Event Memory JsError Op.Val → Option (ℕ × List TickerRow)
  | .call m (.bybit (.ticker _)) (.ok rows) => some (m.now, rows)
  | _ => none

/-- A request that is neither for a ticker nor for an order. -/
def Aside : Op → Prop
  | .bybit (.ticker _) | .bybit (.createOrder _) => False
  | _ => True

variable {α β : Type} {p : Proc α} {q : Proc β} {t : List (Event Memory JsError Op.Val)}

theorem tickerSeen_aside (h : p.All (fun _ => True) Aside) {p' : Proc α} (ht : p.Trace t p') :
    t.filterMap tickerSeen = [] := by
  refine h.filterMap_eq_nil _ ht (fun _ => rfl) fun m o a ho => ?_
  rcases o with _ | o | _ | _ | _
  · rfl
  · rcases o <;> first | rfl | exact ho.elim
  · rfl
  · rfl
  · rfl

theorem both_left {a : α} {b : β} (h : (both p q).Trace t (.done (.ok (a, b))))
    (hq : q.All (fun _ => True) Aside) :
    ∃ t', p.Trace t' (.done (.ok a)) ∧ t.filterMap tickerSeen = t'.filterMap tickerSeen := by
  obtain ⟨t₁, t₂, h₁, h₂, hi⟩ := Prog.Trace.par_ok h
  exact ⟨t₁, h₁, hi.filterMap_left (fun _ _ => rfl) (tickerSeen_aside hq h₂)⟩

theorem both_right {a : α} {b : β} (h : (both p q).Trace t (.done (.ok (a, b))))
    (hp : p.All (fun _ => True) Aside) :
    ∃ t', q.Trace t' (.done (.ok b)) ∧ t.filterMap tickerSeen = t'.filterMap tickerSeen := by
  obtain ⟨t₁, t₂, h₁, h₂, hi⟩ := Prog.Trace.par_ok h
  exact ⟨t₂, h₂, hi.filterMap_right (fun _ _ => rfl) (tickerSeen_aside hp h₁)⟩

/-! ## What is aside of it -/

theorem orDegrade_aside {call : Proc α} {fallback : α} (h : call.All (fun _ => True) Aside) :
    (HybridRepository.orDegrade call fallback).All (fun _ => True) Aside :=
  HybridRepository.all_orDegrade (fun _ => trivial) h

theorem recordOrder_aside (command : Command) (status : String) :
    (HybridRepository.recordOrder command status).All (fun _ => True) Aside :=
  HybridRepository.all_of_toDatabase (fun _ => trivial)
    (HybridRepository.recordOrder_toDatabase _ _)

theorem transition_aside (command : Command) (nextState : CommandState) :
    (HybridRepository.transition command nextState).All (fun _ => True) Aside :=
  HybridRepository.all_of_toDatabase (fun _ => trivial)
    (HybridRepository.transition_toDatabase _ _)

theorem findOrder_aside (symbol : String) (linkId : LinkId) :
    (BybitClient.findOrder symbol linkId).All (fun _ => True) Aside := by
  refine .bind (.request trivial) fun rows => ?_
  rcases rows with _ | ⟨row, rows⟩
  · exact .bind (.request trivial) fun _ => .ret _
  · exact .ret _

theorem hasExchangeEvidence_aside (symbol : String) (linkId : LinkId) :
    (hasExchangeEvidence symbol linkId).All (fun _ => True) Aside :=
  .bind (.par trivial (findOrder_aside _ _) (.request trivial)) fun _ => .ret _

theorem ensureAccountSettings_aside (config : Config) (symbol : String) (leverage : Field) :
    (ensureAccountSettings config symbol leverage).All (fun _ => True) Aside := by
  refine .bind ?_ fun _ => .handle (.request trivial) fun e => ?_
  · refine .bind (.request trivial) fun before => ?_
    split
    · exact .ret _
    · exact .bind (.request trivial) fun _ => .bind (.request trivial) fun _ => .require _ _
  · rcases e with message | _ | ⟨code, message⟩
    · exact .throw _
    · exact .throw _
    · dsimp only
      split
      · exact .ret _
      · exact .throw _

theorem addReservedRows_aside (candidateKey : String) (amount : Option ℚ) (usable : Bool) :
    (HybridRepository.addReservedRows candidateKey amount usable).All (fun _ => True) Aside := by
  rw [HybridRepository.addReservedRows]
  split
  · exact .bind (orDegrade_aside (.request trivial)) fun _ => .ret _
  · exact .ret _

theorem resolvePending_aside (command : Command) (payload : Json) (linkId : LinkId) :
    (resolvePending command payload linkId).All (fun _ => True) Aside := by
  have hpoll : ∀ n order executions, (BybitClient.poll (symbolOf payload) linkId
      (Json.toNumber (payload.get "qty")) n order executions).All (fun _ => True) Aside := by
    intro n
    induction n with
    | zero => exact fun _ _ => .ret _
    | succ n ih =>
      refine fun _ _ => .bind (.par trivial (findOrder_aside _ _) (.request trivial))
        fun (order, executions) => ?_
      dsimp only
      split
      · exact .ret _
      · exact ih _ _
  have hinsert : ∀ executions, (HybridRepository.insertFills command.candidateKey
      executions).All (fun _ => True) Aside := by
    intro executions
    induction executions with
    | nil => exact .ret _
    | cons execution executions ih =>
      rw [HybridRepository.insertFills]
      split
      · exact ih
      · exact .bind (.request trivial) fun _ => ih
  have hopen : (BybitClient.openPosition (Json.toText (payload.get "symbol"))).All
      (fun _ => True) Aside := .bind (.request trivial) fun _ => .ret _
  have hprotect : (BybitClient.ensureProtection payload).All (fun _ => True) Aside := by
    refine .bind hopen fun position => ?_
    rcases position with _ | position
    · exact .throw _
    · dsimp only
      split
      · exact .ofExcept _
      · exact .bind (.request trivial) fun _ => .bind hopen fun _ => .ofExcept _
  refine .bind (.bind (.request trivial) fun _ => hpoll _ _ _) fun resolution => .bind ?_ fun _ =>
    .bind (recordOrder_aside _ _) fun _ => ?_
  · refine .bind (.read _ trivial) fun usable => ?_
    split
    · exact orDegrade_aside (hinsert _)
    · exact .ret _
  · -- Filled, partially filled, failed and unknown: none of them sends an order.
    rcases resolution.state with _ | _ | _ | _
    · exact .bind hprotect fun _ => .bind (recordOrder_aside _ _) fun _ => transition_aside _ _
    · exact .bind hprotect fun _ => .bind (recordOrder_aside _ _) fun _ => transition_aside _ _
    · exact transition_aside _ _
    · exact .ret _

theorem blocked_aside (command : Command) (error : JsError) :
    (blocked command error).All (fun _ => True) Aside := by
  rcases error with message | ⟨code, message, retryable⟩ | ⟨code, message⟩
  · exact .bind (recordOrder_aside _ _).attempt fun _ =>
      .bind (transition_aside _ _).attempt fun _ => .throw _
  · refine .bind (recordOrder_aside _ _).attempt fun _ => ?_
    split
    · exact .ret _
    · exact transition_aside _ _
  · exact .bind (recordOrder_aside _ _).attempt fun _ =>
      .bind (transition_aside _ _).attempt fun _ => .throw _

/-! ## Sizing -/

variable {config : Config} {command : Command} {payload : Json} {linkId : LinkId}

/-- A truth is read with one request for the ticker. -/
theorem trace_liveTruth {truth : Truth}
    (h : (liveTruth config command payload linkId).Trace t (.done (.ok truth))) :
    ∃ n, t.filterMap tickerSeen = [(n, truth.ticker)] := by
  obtain ⟨t₁, t₂, ⟨amount, usable⟩, rfl, h₁, h₂⟩ := Prog.Trace.bind_ok h
  obtain ⟨t₃, t₄, ⟨wallet, instrument, ticker, positions, activeOrders, kline15m, reserved⟩, rfl,
    h₃, h₄⟩ := Prog.Trace.bind_ok h₂
  obtain ⟨rfl, htruth⟩ := Prog.Trace.done_iff.1 h₄
  have hticker : truth.ticker = ticker := by
    obtain rfl := Except.ok.inj (Prog.done.inj htruth)
    rfl
  obtain ⟨t₅, h₅, hseen₅⟩ := both_right h₃ (.request trivial)
  obtain ⟨t₆, h₆, hseen₆⟩ := both_right h₅ (.request trivial)
  obtain ⟨t₇, h₇, hseen₇⟩ := both_left h₆ (.par trivial (.request trivial) <|
    .par trivial (.request trivial) <| .par trivial (.request trivial) <|
    addReservedRows_aside _ _ _)
  obtain ⟨m, rfl⟩ := Prog.Trace.request_ok h₇
  have hread := tickerSeen_aside (.read _ trivial) h₁
  refine ⟨m.now, ?_⟩
  rw [List.append_nil, List.filterMap_append, hread, hseen₅, hseen₆, hseen₇, hticker]
  rfl

/-- The clock never goes back along the trace. -/
def Clocked (t : List (Event Memory JsError Op.Val)) : Prop := (t.map clock).Pairwise (· ≤ ·)

theorem clock_of_tickerSeen {e : Event Memory JsError Op.Val} {n : ℕ} {rows : List TickerRow}
    (h : tickerSeen e = some (n, rows)) : clock e = n := by
  rcases e with m | ⟨m, o, a⟩
  · exact nomatch h
  · rw [tickerSeen.eq_def] at h
    split at h
    · rename_i heq
      obtain ⟨rfl, -⟩ := Event.call.inj heq
      exact (Prod.mk.inj (Option.some.inj h)).1
    · exact nomatch h

/-- A sizing reads the ticker once, and is made from it. -/
theorem trace_prepareLiveExecution {sized : Json} (hc : Clocked t)
    (h : (prepareLiveExecution config command payload linkId).Trace t (.done (.ok sized))) :
    ∃ truth now n x, t.filterMap tickerSeen = [(n, truth.ticker)] ∧ n ≤ now ∧
      Made payload truth config now x ∧ sized = x.sized payload truth now := by
  obtain ⟨t₁, t₂, _, rfl, h₁, h₂⟩ := Prog.Trace.bind_ok h
  obtain ⟨rfl, -⟩ := Prog.Trace.done_iff.1 h₁
  obtain ⟨t₃, t₄, truth, rfl, h₃, h₄⟩ := Prog.Trace.bind_ok h₂
  obtain ⟨t₅, t₆, now, rfl, h₅, h₆⟩ := Prog.Trace.bind_ok h₄
  obtain ⟨m, rfl, rfl⟩ := h₅.atomically_ok
  obtain ⟨rfl, hplan⟩ := Prog.Trace.done_iff.1 h₆
  obtain ⟨x, hx, hsized⟩ := buildLiveExecutionPlan_eq_ok (Prog.done.inj hplan).symm
  obtain ⟨n, hseen⟩ := trace_liveTruth h₃
  refine ⟨truth, m.now, n, x, ?_, ?_, hx, hsized⟩
  · rw [List.nil_append, List.filterMap_append, hseen]
    rfl
  · -- the clock is read after the ticker
    obtain ⟨e, he, hn⟩ := List.mem_filterMap.1
      (show (n, truth.ticker) ∈ t₃.filterMap tickerSeen by rw [hseen]; exact List.mem_cons_self)
    rw [Clocked, List.nil_append, List.map_append, List.pairwise_append] at hc
    exact clock_of_tickerSeen hn ▸ hc.2.2 (clock e) (List.mem_map_of_mem he) m.now (by simp [clock])

theorem Clocked.left {t' : List (Event Memory JsError Op.Val)} (h : Clocked (t ++ t')) :
    Clocked t := by
  rw [Clocked, List.map_append] at h
  exact (List.pairwise_append.1 h).1

theorem Clocked.right {t' : List (Event Memory JsError Op.Val)} (h : Clocked (t ++ t')) :
    Clocked t' := by
  rw [Clocked, List.map_append] at h
  exact (List.pairwise_append.1 h).2.1

/-! ## Submission -/

/-- A candidate whose order is to be sent was sized twice, the second time from what the
    first one gave. -/
theorem trace_prepare {command' : Command} {sized : Json} (hc : Clocked t)
    (h : (prepare config command linkId).Trace t (.done (.ok (.sized command' sized)))) :
    ∃ truth₁ now₁ n₁ x₁ truth₂ now₂ n₂ x₂,
      t.filterMap tickerSeen = [(n₁, truth₁.ticker), (n₂, truth₂.ticker)] ∧ n₂ ≤ now₂ ∧
      Made command.payload truth₁ config now₁ x₁ ∧
      Made (x₁.sized command.payload truth₁ now₁) truth₂ config now₂ x₂ := by
  obtain ⟨t₁, t₂, evidence, rfl, h₁, h₂⟩ := Prog.Trace.bind_ok h
  have hnone₁ := tickerSeen_aside (hasExchangeEvidence_aside _ _) h₁
  split at h₂
  · -- a command with evidence is not sized
    obtain ⟨t₃, t₄, c, rfl, -, h₄⟩ := Prog.Trace.bind_ok h₂
    obtain ⟨t₅, t₆, _, rfl, -, h₆⟩ := Prog.Trace.bind_ok h₄
    exact nomatch Except.ok.inj (Prog.done.inj (Prog.Trace.done_iff.1 h₆).2)
  · obtain ⟨t₃, t₄, payload₁, rfl, h₃, h₄⟩ := Prog.Trace.bind_ok h₂
    obtain ⟨t₅, t₆, _, rfl, h₅, h₆⟩ := Prog.Trace.bind_ok h₄
    obtain ⟨t₇, t₈, payload₂, rfl, h₇, h₈⟩ := Prog.Trace.bind_ok h₆
    obtain ⟨truth₁, now₁, n₁, x₁, hseen₁, -, hx₁, rfl⟩ :=
      trace_prepareLiveExecution hc.right.left h₃
    obtain ⟨truth₂, now₂, n₂, x₂, hseen₂, hn₂, hx₂, -⟩ :=
      trace_prepareLiveExecution hc.right.right.right.left h₇
    have hnone₅ := tickerSeen_aside (ensureAccountSettings_aside _ _ _) h₅
    have hnone₈ : t₈.filterMap tickerSeen = [] := by
      refine tickerSeen_aside (.bind (.atomically trivial) fun c => ?_) h₈
      exact .bind (recordOrder_aside _ _) fun _ => .bind (transition_aside _ _) fun _ => .ret _
    refine ⟨truth₁, now₁, n₁, x₁, truth₂, now₂, n₂, x₂, ?_, hn₂, hx₁, hx₂⟩
    rw [List.filterMap_append, List.filterMap_append, List.filterMap_append, List.filterMap_append,
      hnone₁, hseen₁, hnone₅, hseen₂, hnone₈]
    rfl

/-- The order is the first thing that is sent once the command is pending. -/
theorem trace_submit {request : OrderRequest} {k : Except JsError Field → Proc Command}
    (h : (submit command payload linkId).Trace t (.call (.bybit (.createOrder request)) k)) :
    t = [] := by
  rcases Prog.Trace.attempt_request h with rfl | ⟨m, answer, t', rfl, h'⟩
  · rfl
  · -- what follows the answer sends no other order
    exfalso
    rcases answer with error | orderId
    · rcases error with message | ⟨code, message, retryable⟩ | ⟨code, message⟩
      · exact ((Prog.All.bind (recordOrder_aside command "SUBMISSION_UNKNOWN").attempt
          fun _ => .throw _).trace h').1
      · exact ((Prog.All.bind (recordOrder_aside command "SUBMISSION_UNKNOWN").attempt
          fun _ => .throw _).trace h').1
      · exact ((Prog.All.bind (recordOrder_aside command "ORDER_REJECTED").attempt
          fun _ => transition_aside command .failed).trace h').1
    · dsimp only at h'
      split at h'
      · exact ((Prog.All.bind (recordOrder_aside command "ACKNOWLEDGEMENT_INCOMPLETE")
          fun _ => .throw _).trace h').1
      · exact ((Prog.All.bind (recordOrder_aside command "ORDER_ACKNOWLEDGED")
          fun _ => resolvePending_aside command payload linkId).trace h').1

/-- A request that is not for an order. -/
def Unordered : Op → Prop
  | .bybit (.createOrder _) => False
  | _ => True

theorem Unordered.of_aside (o : Op) (h : Aside o) : Unordered o := by
  rcases o with _ | o | _ | _ | _
  · trivial
  · rcases o <;> trivial
  · trivial
  · trivial
  · trivial

theorem prepare_unordered (config : Config) (command : Command) (linkId : LinkId) :
    (prepare config command linkId).All (fun _ => True) Unordered := by
  have haside : ∀ {α : Type} {p : Proc α}, p.All (fun _ => True) Aside →
      p.All (fun _ => True) Unordered := fun h => h.mono (fun _ => id) Unordered.of_aside
  have hprepare : ∀ payload, (prepareLiveExecution config command payload linkId).All
      (fun _ => True) Unordered := by
    intro payload
    refine .bind (.ofExcept _) fun _ => .bind (.bind (.read _ trivial) fun (amount, usable) => ?_)
      fun truth => .bind (.read _ trivial) fun now => .ofExcept _
    exact .bind (.par trivial (.request trivial) <| .par trivial (.request trivial) <|
      .par trivial (.request trivial) <| .par trivial (.request trivial) <|
      .par trivial (.request trivial) <| .par trivial (.request trivial) <|
      haside (addReservedRows_aside _ _ _)) fun _ => .ret _
  refine .bind (haside (hasExchangeEvidence_aside _ _)) fun evidence => ?_
  split
  · exact .bind (haside (transition_aside _ _)) fun _ =>
      .bind (haside (recordOrder_aside _ _)) fun _ => .ret _
  · exact .bind (hprepare _) fun _ => .bind (haside (ensureAccountSettings_aside _ _ _)) fun _ =>
      .bind (hprepare _) fun _ => .bind (.atomically trivial) fun _ =>
      .bind (haside (recordOrder_aside _ _)) fun _ =>
      .bind (haside (transition_aside _ _)) fun _ => .ret _

/-- An order is only sent for a candidate that was just sized. -/
theorem trace_execute {request : OrderRequest} {k : Except JsError Field → Proc Command}
    (h : (execute config command).Trace t (.call (.bybit (.createOrder request)) k)) :
    ∃ command' sized, (prepare config command (orderLinkId command.candidateKey)).Trace t
      (.done (.ok (.sized command' sized))) := by
  obtain ⟨t₁, t₂, _, rfl, h₁, h₂⟩ := h.bind_call (F := fun _ => True) (A := Unordered) (.ofExcept _) id
  obtain ⟨rfl, -⟩ := Prog.Trace.done_iff.1 h₁
  dsimp only at h₂
  split at h₂
  · exact ((resolvePending_aside _ _ _).trace h₂).1.elim
  · obtain ⟨t₃, t₄, r, rfl, h₃, h₄⟩ := h₂.bind_call (A := Unordered)
      (prepare_unordered _ _ _).attempt id
    rcases r with error | pending | ⟨command', sized⟩
    · exact ((blocked_aside _ _).trace h₄).1.elim
    · exact ((resolvePending_aside _ _ _).trace h₄).1.elim
    · obtain rfl := trace_submit h₄
      exact ⟨command', sized, by simpa using h₃.attempt_ok⟩
  · exact nomatch (Prog.Trace.done_iff.1 h₂).2

/-! ## Attempts -/

/-- The trace of some attempts to execute a command, each of which ended in a wait that may
    be retried, and the command after them. -/
inductive Attempts (config : Config) (command : Command) :
    List (Event Memory JsError Op.Val) → Command → Prop
  | nil : Attempts config command [] command
  | again {t t' t'' : List (Event Memory JsError Op.Val)} {c c' : Command} {code : WaitCode}
    {message : String} : Attempts config command t c →
    (prepare config c (orderLinkId c.candidateKey)).Trace t'
      (.done (.error (.wait code message true))) →
    (blocked c (.wait code message true)).Trace t'' (.done (.ok c')) →
    Attempts config command (t ++ (t' ++ t'')) c'

/-- They leave the command as it was. -/
theorem Attempts.command_eq {c : Command} (h : Attempts config command t c) : c = command := by
  induction h with
  | nil => rfl
  | again _ _ hblocked ih =>
    obtain ⟨t₁, t₂, _, rfl, -, h₂⟩ := Prog.Trace.bind_ok hblocked
    obtain rfl := Except.ok.inj (Prog.done.inj (Prog.Trace.done_iff.1 h₂).2)
    exact ih

/-! ## The bound -/

/-- The mark that some tickers show. -/
def markOf (rows : List TickerRow) : Option ℚ :=
  rows.head?.bind fun ticker => Json.toNumber (Json.orElse ticker.markPrice ticker.lastPrice)

/-- The price is within so many percent of a reference. -/
def Within (pct reference mark : ℚ) : Prop := |mark - reference| / reference * 100 ≤ pct

/-- The percentage that the checks allow, with their tolerance. -/
def maxDrift (config : Config) : ℚ := config.maxEntryDriftPct + 1 / 10 ^ 12

/-- The price does not go on in the direction that it first moved in. -/
def Turns (reference mark₁ mark₂ : ℚ) : Prop := (mark₁ - reference) * (mark₂ - mark₁) ≤ 0

/-- The two moves of the price, up to the first mark and on to the second one, add up to no
    more than so many percent of the reference. -/
def AddUp (pct reference mark₁ mark₂ : ℚ) : Prop :=
  |mark₁ - reference| + |mark₂ - mark₁| ≤ reference * pct / 100

theorem within_iff {pct reference mark : ℚ} (h : 0 < reference) :
    Within pct reference mark ↔ |mark - reference| ≤ reference * pct / 100 := by
  rw [Within, div_mul_eq_mul_div, div_le_iff₀ h, le_div_iff₀ (by norm_num), mul_comm pct]

/-- Two moves, each within so many percent of where it starts, stay within them of the first
    reference just when the price turns in between, or the two add up to no more. -/
theorem within_of_moves {pct reference mark₁ mark₂ : ℚ} (hreference : 0 < reference)
    (hmark₁ : 0 < mark₁) (hmark₂ : 0 < mark₂) (h₁ : Within pct reference mark₁)
    (h₂ : Within pct mark₁ mark₂) :
    Within pct reference mark₂ ↔
      Turns reference mark₁ mark₂ ∨ AddUp pct reference mark₁ mark₂ := by
  rw [within_iff hreference] at h₁ ⊢
  rw [within_iff hmark₁] at h₂
  have hsum : mark₂ - reference = mark₁ - reference + (mark₂ - mark₁) := by ring
  constructor
  · intro h
    by_cases hturns : Turns reference mark₁ mark₂
    · exact .inl hturns
    · -- both moves are in one direction
      refine .inr ?_
      rw [Turns, not_le] at hturns
      have habs : |mark₁ - reference + (mark₂ - mark₁)| = |mark₁ - reference| + |mark₂ - mark₁| :=
        (abs_add_eq_add_abs_iff _ _).2
          ((pos_and_pos_or_neg_and_neg_of_mul_pos hturns).imp
            (fun h => ⟨h.1.le, h.2.le⟩) fun h => ⟨h.1.le, h.2.le⟩)
      rwa [hsum, habs] at h
  · rintro (hturns | hadd)
    · rcases mul_nonpos_iff.1 hturns with ⟨hup, hdown⟩ | ⟨hdown, hup⟩
      · -- up, and down again: by no more than to zero
        rw [abs_of_nonneg hup] at h₁
        rw [abs_of_nonpos hdown] at h₂
        refine abs_le.2 ⟨?_, by linarith⟩
        rcases le_total pct 100 with hpct | hpct
        · have : (mark₁ - reference) * pct ≤ (mark₁ - reference) * 100 :=
            mul_le_mul_of_nonneg_left hpct hup
          linarith
        · have : reference * 100 ≤ reference * pct := mul_le_mul_of_nonneg_left hpct hreference.le
          linarith
      · rw [abs_of_nonpos hdown] at h₁
        rw [abs_of_nonneg hup] at h₂
        have hpct : 0 ≤ pct := by
          have := (mul_nonneg_iff_of_pos_left hmark₁).1 (show 0 ≤ mark₁ * pct by linarith)
          exact this
        have : mark₁ * pct ≤ reference * pct := mul_le_mul_of_nonneg_right (by linarith) hpct
        exact abs_le.2 ⟨by linarith, by linarith⟩
    · rw [hsum]
      exact (abs_add_le _ _).trans hadd

/-- What is within so many percent of the first mark is within them of the reference, whatever it
    is, only if the two are the same. -/
theorem within_from_iff {pct reference mark₁ : ℚ} (hreference : 0 < reference) (hmark₁ : 0 < mark₁)
    (hpct : 0 < pct) (hlt : pct < 100) :
    (∀ mark, 0 < mark → Within pct mark₁ mark → Within pct reference mark) ↔
      mark₁ = reference := by
  constructor
  · intro h
    have hmove : 0 < mark₁ * pct := mul_pos hmark₁ hpct
    have hroom : mark₁ * pct < mark₁ * 100 := mul_lt_mul_of_pos_left hlt hmark₁
    -- the marks farthest above and below the first one
    have habove := h (mark₁ + mark₁ * pct / 100) (by linarith)
      ((within_iff hmark₁).2 (by rw [add_sub_cancel_left, abs_of_pos (by linarith)]))
    have hbelow := h (mark₁ - mark₁ * pct / 100) (by linarith)
      ((within_iff hmark₁).2 (by rw [sub_sub_cancel_left, abs_neg, abs_of_pos (by linarith)]))
    rw [within_iff hreference] at habove hbelow
    have hle : mark₁ * (100 + pct) ≤ reference * (100 + pct) := by
      linarith [(abs_le.1 habove).2]
    have hge : reference * (100 - pct) ≤ mark₁ * (100 - pct) := by
      linarith [(abs_le.1 hbelow).1]
    exact le_antisymm (le_of_mul_le_mul_right hle (by linarith))
      (le_of_mul_le_mul_right hge (by linarith))
  · rintro rfl mark - h
    exact h

/-- A command to execute. -/
def exampleCommand : Command where
  candidateKey := "BTCUSDT:1"
  slotId := some 1
  state := .reserved
  payload := .obj [("candidateKey", .str "BTCUSDT:1"), ("symbol", .str "BTCUSDT"),
    ("side", .str "Buy"), ("grade", .str "A"), ("riskApproved", .bool true),
    ("riskStatus", .str "APPROVED_RISK"), ("executionStatus", .str "AWAITING_NODE_EXECUTION"),
    ("orderSubmitted", .bool false), ("entryReference", .num 100), ("riskPerTradePct", .num 1),
    ("createdAt", .num 1000)]
  ownerId := some "node:slot1"
  createdAt := 1000
  updatedAt := 1000
  source := .direct

/-- The answers to a command whose sizings read the marks `first` and `second`; the order is
    left open. -/
def exampleAnswers (first second : String) (t : List (Event Memory JsError Op.Val)) :
    (o : Op) → Option (Except JsError o.Val) :=
  let truth := exampleTruth (if t.filterMap tickerSeen = [] then first else second) "0.01" "0.001"
    "0.001" none
  fun o => match o with
    | .bybit .accountInfo => some (.ok (some (.str "ISOLATED_MARGIN")))
    | .bybit .wallet => some (.ok truth.wallet)
    | .bybit (.instrument _) => some (.ok truth.instrument)
    | .bybit (.ticker _) => some (.ok truth.ticker)
    | .bybit (.klines _ _) => some (.ok truth.kline15m)
    | .bybit (.createOrder _) => none
    | .bybit .positions => some (.ok [])
    | .bybit (.activeOrders _) => some (.ok [])
    | .bybit (.realtimeOrder _ _) => some (.ok [])
    | .bybit (.orderHistory _ _) => some (.ok [])
    | .bybit (.executions _ _) => some (.ok [])
    | .bybit (.setLeverage _ _) => some (.ok ())
    | .toss => some (.ok true)
    | _ => none

/-- What the example does up to its order. -/
def exampleSubmission (first second : String) :
    List (Event Memory JsError Op.Val) × Proc Command :=
  Prog.follow (exampleAnswers first second)
    (execute (loadConfig "node" none none none (some 3)) exampleCommand)
    (Memory.started false false 1000) []

/-- A program at the request for an order. -/
def AtOrder : Proc Command → Bool
  | .call (.bybit (.createOrder _)) _ => true
  | _ => false

theorem exists_of_atOrder {p : Proc Command} (h : AtOrder p) :
    ∃ request k, p = .call (.bybit (.createOrder request)) k := by
  unfold AtOrder at h
  split at h
  · exact ⟨_, _, rfl⟩
  · exact nomatch h

end Executor

end IntradayBot.Node
