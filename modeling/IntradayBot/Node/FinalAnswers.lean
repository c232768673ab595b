import Mathlib.Order.Monotone.Basic
import Mathlib.Tactic.Linarith
import IntradayBot.Coop.Trace
import IntradayBot.Node.BybitClient

/-!
# The answers of a wait

`waitForResolution` polls an order until what it sees settles what became of it. It answers
at the first poll that shows something executed of a known quantity, and this is final only
if nothing is executed afterwards (`Settled`): a poll between two fills of an order answers
`PARTIAL` with the first of them.

The polls of a trace are read off its answers (`Polled`).
-/

namespace IntradayBot.Node

open Coop

namespace BybitClient

/-! ## Observations -/

/-- What a poll sees. -/
structure Observation where
  order : Option OrderRow
  executions : List ExecutionRow

/-- The statuses after which nothing becomes of an order, but for `Filled`. -/
def endedStatuses : List String := ["Cancelled", "Rejected", "Deactivated", "Expired"]

namespace Observation

variable (o : Observation) (expectedQty : Option ℚ)

/-- The status of the order. -/
def status : String := Json.textOrEmpty (o.order.bind OrderRow.orderStatus)

/-- The quantity executed so far. -/
def executed : Option ℚ := cumulativeQty o.order o.executions

/-- The quantity requested, of the order if it shows one. -/
def requested : Option ℚ :=
  if Json.truthy (o.order.bind OrderRow.qty) then Json.toNumber (o.order.bind OrderRow.qty)
  else some (expectedQty.getD 0)

/-- Part of a known quantity is executed, or the order is over. -/
def Tells (q : ℚ) : Prop :=
  0 < q ∧ (o.status = "Filled" ∨ o.status = "PartiallyFilled" ∨
    ∃ r, o.requested expectedQty = some r ∧ 0 < r) ∨ o.status ∈ endedStatuses

/-- The whole quantity is executed. -/
def Whole (q : ℚ) : Prop :=
  0 < q ∧ (o.status = "Filled" ∨ ∃ r, o.requested expectedQty = some r ∧ 0 < r ∧ r ≤ q)

/-- The quantity is executed but for less than the comparison sees. -/
def NearlyWhole (q : ℚ) : Prop :=
  0 < q ∧ ∃ r, o.requested expectedQty = some r ∧ 0 < r ∧ q < r ∧ r ≤ q + 1 / 10 ^ 12

end Observation

/-- What the polls of an order see: what is executed does not decrease, and an order that is
    over remains so. -/
structure Steady (seen : ℕ → Observation) (executed : ℕ → ℚ) : Prop where
  executed_eq i : (seen i).executed = some (executed i)
  mono : Monotone executed
  terminal i j : i ≤ j → (seen i).status ∈ "Filled" :: endedStatuses →
    (seen j).status = (seen i).status

/-! ## The polls of a trace -/

/-- The order that an answer shows, if it is one about orders: the history is only asked
    when there is no current order. -/
def orderSeen : Event Memory JsError Op.Val → Option (Option OrderRow)
  | .call _ (.bybit (.realtimeOrder _ _)) (.ok (current :: _)) => some (some current)
  | .call _ (.bybit (.orderHistory _ _)) (.ok history) => some history.head?
  | _ => none

/-- The executions that an answer shows. -/
def executionsSeen : Event Memory JsError Op.Val → Option (List ExecutionRow)
  | .call _ (.bybit (.executions _ _)) (.ok executions) => some executions
  | _ => none

/-- How often there is time to poll. -/
def pollsSeen : Event Memory JsError Op.Val → Option ℕ
  | .call _ .polls (.ok n) => some n
  | _ => none

/-- The polls of a trace saw the observations `l`. -/
structure Polled (t : List (Event Memory JsError Op.Val)) (l : List Observation) : Prop where
  orders : t.filterMap orderSeen = l.map Observation.order
  executions : t.filterMap executionsSeen = l.map Observation.executions

theorem Polled.nil : Polled [] [] := ⟨rfl, rfl⟩

theorem Polled.append {t t' : List (Event Memory JsError Op.Val)} {l l' : List Observation}
    (h : Polled t l) (h' : Polled t' l') : Polled (t ++ t') (l ++ l') :=
  ⟨by rw [List.filterMap_append, h.orders, h'.orders, List.map_append],
    by rw [List.filterMap_append, h.executions, h'.executions, List.map_append]⟩

variable {symbol : String} {linkId : LinkId} {expectedQty : Option ℚ}
  {t : List (Event Memory JsError Op.Val)}

theorem trace_findOrder {order : Option OrderRow}
    (h : Prog.Trace (findOrder symbol linkId) t (.done (.ok order))) :
    t.filterMap orderSeen = [order] ∧ t.filterMap executionsSeen = [] := by
  obtain ⟨t₁, t₂, rows, rfl, h₁, h₂⟩ := Prog.Trace.bind_ok h
  obtain ⟨m, rfl⟩ := Prog.Trace.request_ok h₁
  rcases rows with _ | ⟨current, rows⟩
  · obtain ⟨t₁, t₃, history, rfl, h₁, h₃⟩ := Prog.Trace.bind_ok h₂
    obtain ⟨m', rfl⟩ := Prog.Trace.request_ok h₁
    obtain ⟨rfl, hr⟩ := Prog.Trace.done_iff.1 h₃
    obtain rfl : order = history.head? := by simpa using hr
    exact ⟨rfl, rfl⟩
  · obtain ⟨rfl, hr⟩ := Prog.Trace.done_iff.1 h₂
    obtain rfl : order = some current := by simpa using hr
    exact ⟨rfl, rfl⟩

/-- A poll sees one order and its executions, in whatever order they are read. -/
theorem trace_poll {order : Option OrderRow} {executions : List ExecutionRow}
    (h : Prog.Trace (both (findOrder symbol linkId) (bybit (.executions symbol linkId))) t
      (.done (.ok (order, executions)))) : Polled t [⟨order, executions⟩] := by
  obtain ⟨t₁, t₂, h₁, h₂, hi⟩ := Prog.Trace.par_ok h
  obtain ⟨horder, hnone⟩ := trace_findOrder h₁
  obtain ⟨m, rfl⟩ := Prog.Trace.request_ok h₂
  constructor
  · rw [hi.filterMap_left (fun _ _ => rfl) rfl, horder]
    rfl
  · rw [hi.filterMap_right (fun _ _ => rfl) hnone]
    rfl

/-- The answer when there is no time left. -/
def lateAnswer (last : Observation) : Resolution where
  state := if last.executed.any (0 < ·) then .partiallyFilled else .unknown
  executions := last.executions
  cumulativeQty := last.executed

/-- The loop, with so many polls left after `last`, sees the observations of a list and
    answers. -/
inductive Loops (expectedQty : Option ℚ) : ℕ → Observation → List Observation → Resolution → Prop
  | timedOut (last : Observation) : Loops expectedQty 0 last [] (lateAnswer last)
  | settled {n : ℕ} {last o : Observation} {state : ResolutionState} :
    resolve o.order o.executions expectedQty = some state →
    Loops expectedQty (n + 1) last [o] ⟨state, o.executions, o.executed⟩
  | again {n : ℕ} {last o : Observation} {l : List Observation} {resolution : Resolution} :
    resolve o.order o.executions expectedQty = none → Loops expectedQty n o l resolution →
    Loops expectedQty (n + 1) last (o :: l) resolution

theorem trace_loop {n : ℕ} (last : Observation) {resolution : Resolution}
    (h : Prog.Trace (poll symbol linkId expectedQty n last.order last.executions) t
      (.done (.ok resolution))) :
    ∃ l, Polled t l ∧ Loops expectedQty n last l resolution := by
  induction n generalizing last t with
  | zero =>
    obtain ⟨rfl, hr⟩ := Prog.Trace.done_iff.1 h
    obtain rfl : lateAnswer last = resolution := (Except.ok.inj (Prog.done.inj hr)).symm
    exact ⟨[], .nil, .timedOut last⟩
  | succ n ih =>
    obtain ⟨t₁, t₂, ⟨order, executions⟩, rfl, h₁, h₂⟩ := Prog.Trace.bind_ok h
    have hpoll := trace_poll h₁
    dsimp only at h₂
    rcases hs : resolve order executions expectedQty with _ | state
    · rw [hs] at h₂
      obtain ⟨l, hl, hloop⟩ := ih ⟨order, executions⟩ h₂
      exact ⟨_, hpoll.append hl, .again hs hloop⟩
    · rw [hs] at h₂
      obtain ⟨rfl, hr⟩ := Prog.Trace.done_iff.1 h₂
      obtain rfl : resolution = _ := by simpa using hr
      exact ⟨[⟨order, executions⟩], by rwa [List.append_nil], .settled hs⟩

/-- The loop never asks again how much time there is. -/
theorem all_poll (n : ℕ) (order : Option OrderRow) (executions : List ExecutionRow) :
    (poll symbol linkId expectedQty n order executions).All (fun _ => True) (· ≠ .polls) := by
  have hfind : (findOrder symbol linkId).All (fun _ => True) (· ≠ .polls) := by
    refine .bind (.request nofun) fun rows => ?_
    rcases rows with _ | ⟨current, rows⟩
    · exact .bind (.request nofun) fun history => trivial
    · trivial
  induction n generalizing order executions with
  | zero => trivial
  | succ n ih =>
    refine .bind (.par nofun hfind (.request nofun)) fun seen => ?_
    dsimp only
    rcases resolve seen.1 seen.2 expectedQty with _ | state
    · exact ih _ _
    · trivial

theorem trace_waitForResolution {resolution : Resolution}
    (h : Prog.Trace (waitForResolution symbol linkId expectedQty) t (.done (.ok resolution))) :
    ∃ n l, t.filterMap pollsSeen = [n] ∧ Polled t l ∧
      Loops expectedQty n ⟨none, []⟩ l resolution := by
  obtain ⟨t₁, t₂, n, rfl, h₁, h₂⟩ := Prog.Trace.bind_ok h
  obtain ⟨m, rfl⟩ := Prog.Trace.request_ok h₁
  obtain ⟨l, hl, hloop⟩ := trace_loop ⟨none, []⟩ h₂
  refine ⟨n, l, ?_, ⟨hl.orders, hl.executions⟩, hloop⟩
  have hnone := (all_poll n none []).filterMap_eq_nil pollsSeen h₂ (fun _ => rfl) ?_
  · rw [List.filterMap_append, hnone]
    rfl
  · rintro m (_ | _ | _ | _ | _) a ho
    · rfl
    · rfl
    · rfl
    · exact absurd rfl ho
    · rfl

/-! ## Final answers -/

/-- What an observation settles, in terms of what it shows. -/
theorem resolve_eq (o : Observation) {q : ℚ} (hq : o.executed = some q) :
    resolve o.order o.executions expectedQty =
      if 0 < q ∧ (o.status = "Filled" ∨
          ∃ r, o.requested expectedQty = some r ∧ 0 < r ∧ r ≤ q + 1 / 10 ^ 12) then some .filled
      else if 0 < q ∧ (o.status = "PartiallyFilled" ∨
          ∃ r, o.requested expectedQty = some r ∧ 0 < r ∧ q < r) then some .partiallyFilled
      else if o.status ∈ endedStatuses then some (if 0 < q then .partiallyFilled else .failed)
      else none := by
  have hc : cumulativeQty o.order o.executions = some q := hq
  have hr : (if Json.truthy (o.order.bind OrderRow.qty) then
      Json.toNumber (o.order.bind OrderRow.qty) else some (expectedQty.getD 0)) =
        o.requested expectedQty := rfl
  have hs : Json.textOrEmpty (o.order.bind OrderRow.orderStatus) = o.status := rfl
  simp only [resolve, hc, hr, hs, Option.any_some, Option.any_eq_true, decide_eq_true_iff]
  rfl

/-- An observation settles something just when it tells something. -/
theorem resolve_eq_none_iff {o : Observation} {q : ℚ} (hq : o.executed = some q) :
    resolve o.order o.executions expectedQty = none ↔ ¬ o.Tells expectedQty q := by
  rw [resolve_eq o hq]
  constructor
  · intro h
    split_ifs at h with h₁ h₂ h₃
    rintro (⟨hpos, hf | hp | ⟨r, hr, hr0⟩⟩ | he)
    · exact h₁ ⟨hpos, .inl hf⟩
    · exact h₂ ⟨hpos, .inl hp⟩
    · -- the whole quantity is executed, or less
      rcases le_or_gt r q with hle | hlt
      · exact h₁ ⟨hpos, .inr ⟨r, hr, hr0, hle.trans (by norm_num)⟩⟩
      · exact h₂ ⟨hpos, .inr ⟨r, hr, hr0, hlt⟩⟩
    · exact h₃ he
  · intro h
    rw [if_neg, if_neg, if_neg]
    · exact fun he => h (.inr he)
    · rintro ⟨hpos, hp | ⟨r, hr, hr0, -⟩⟩
      · exact h (.inl ⟨hpos, .inr (.inl hp)⟩)
      · exact h (.inl ⟨hpos, .inr (.inr ⟨r, hr, hr0⟩)⟩)
    · rintro ⟨hpos, hf | ⟨r, hr, hr0, -⟩⟩
      · exact h (.inl ⟨hpos, .inl hf⟩)
      · exact h (.inl ⟨hpos, .inr (.inr ⟨r, hr, hr0⟩)⟩)

section

variable {seen : ℕ → Observation} {executed : ℕ → ℚ} {l : List Observation}
  {resolution : Resolution}

variable (seen executed expectedQty) in
/-- The poll `k` is the one that the answer comes from: the first one that tells something, or
    the last one that there is time for. -/
structure AnswersAt (n k : ℕ) : Prop where
  lt : k < n
  before : ∀ i < k, ¬ (seen i).Tells expectedQty (executed i)
  here : (seen k).Tells expectedQty (executed k) ∨ k + 1 = n

theorem AnswersAt.unique {n k k' : ℕ} (h : AnswersAt expectedQty seen executed n k)
    (h' : AnswersAt expectedQty seen executed n k') : k = k' := by
  have := h.lt
  have := h'.lt
  rcases lt_trichotomy k k' with hlt | heq | hlt
  · rcases h.here with ht | hn
    · exact absurd ht (h'.before k hlt)
    · omega
  · exact heq
  · rcases h'.here with ht | hn
    · exact absurd ht (h.before k' hlt)
    · omega

/-- The polls of a loop, as those of a sequence from `i` on. -/
theorem Loops.answers (hseen : Steady seen executed) {n m i : ℕ} {last : Observation}
    (h : Loops expectedQty n last l resolution) (hl : l = (List.range' i m).map seen) :
    (n = 0 ∧ m = 0 ∧ resolution = lateAnswer last) ∨
      ∃ k, m = k + 1 ∧ k < n ∧
        (∀ j < k, ¬ (seen (i + j)).Tells expectedQty (executed (i + j))) ∧
        ((∃ state, resolve (seen (i + k)).order (seen (i + k)).executions expectedQty = some state ∧
            resolution = ⟨state, (seen (i + k)).executions, (seen (i + k)).executed⟩) ∨
          ¬ (seen (i + k)).Tells expectedQty (executed (i + k)) ∧ k + 1 = n ∧
            resolution = lateAnswer (seen (i + k))) := by
  induction h generalizing i m with
  | timedOut last =>
    rcases m with _ | m
    · exact .inl ⟨rfl, rfl, rfl⟩
    · simp [List.range'_succ] at hl
  | @settled n last o state hs =>
    obtain ⟨rfl, rfl⟩ : m = 1 ∧ o = seen i := by
      rcases m with _ | _ | m <;> simp_all [List.range'_succ]
    exact .inr ⟨0, rfl, Nat.succ_pos n, by simp, .inl ⟨state, hs, rfl⟩⟩
  | @again n last o l resolution hs _ ih =>
    rcases m with _ | m
    · simp at hl
    · rw [List.range'_succ, List.map_cons, List.cons.injEq] at hl
      obtain ⟨rfl, hl⟩ := hl
      have hnone := (resolve_eq_none_iff (hseen.executed_eq i)).1 hs
      right
      -- The loop told nothing at `i`, so the answer is that of the rest, one place later.
      rcases ih hl with ⟨rfl, rfl, rfl⟩ | ⟨k, rfl, hk, hbefore, hanswer⟩
      · exact ⟨0, rfl, Nat.one_pos, by simp, .inr ⟨hnone, rfl, rfl⟩⟩
      · refine ⟨k + 1, rfl, by omega, fun j hj => ?_, ?_⟩
        · rcases j with _ | j
          · exact hnone
          · have := hbefore j (by omega)
            rwa [Nat.add_right_comm] at this
        · rw [Nat.add_right_comm, Nat.add_assoc] at hanswer
          simpa using hanswer

/-- An answer is final, after `made` polls: nothing is executed if the order failed, and
    nothing more if it was filled in part; and it is only filled if all of it was. -/
def Final (seen : ℕ → Observation) (executed : ℕ → ℚ) (expectedQty : Option ℚ) (made : ℕ)
    (resolution : Resolution) : Prop :=
  match resolution.state with
  | .failed => ∀ j, executed j ≤ 0
  | .partiallyFilled => ∃ q, resolution.cumulativeQty = some q ∧
      ∀ j, made ≤ j + 1 → executed j ≤ q
  | .filled => ∃ k, k + 1 = made ∧ ((seen k).status = "Filled" ∨
      ∃ r, (seen k).requested expectedQty = some r ∧ r ≤ executed k)
  | .unknown => True

/-- The poll that is answered from shows the whole quantity, or nothing, or all that will
    ever be executed, and not a quantity that is nearly the whole. -/
def Settled (seen : ℕ → Observation) (executed : ℕ → ℚ) (expectedQty : Option ℚ) (n : ℕ) : Prop :=
  ∀ k, AnswersAt expectedQty seen executed n k →
    (seen k).Whole expectedQty (executed k) ∨
      (¬ (seen k).Tells expectedQty (executed k) ∧ executed k ≤ 0) ∨
      (¬ (seen k).NearlyWhole expectedQty (executed k) ∧
        ∀ j, k ≤ j → executed j ≤ max 0 (executed k))

/-- An observation that is not taken for the whole quantity is not nearly so. -/
theorem not_whole {o : Observation} {q : ℚ}
    (h : ¬ (0 < q ∧ (o.status = "Filled" ∨
      ∃ r, o.requested expectedQty = some r ∧ 0 < r ∧ r ≤ q + 1 / 10 ^ 12))) :
    ¬ o.Whole expectedQty q ∧ ¬ o.NearlyWhole expectedQty q := by
  constructor
  · rintro ⟨hpos, hf | ⟨r, hr, hr0, hle⟩⟩
    · exact h ⟨hpos, .inl hf⟩
    · exact h ⟨hpos, .inr ⟨r, hr, hr0, hle.trans (by norm_num)⟩⟩
  · rintro ⟨hpos, r, hr, hr0, -, hle⟩
    exact h ⟨hpos, .inr ⟨r, hr, hr0, hle⟩⟩

/-- An answer `PARTIAL` is final just when nothing more is executed. -/
theorem final_partiallyFilled {k : ℕ} {q : ℚ} {executions : List ExecutionRow} (hpos : 0 < q) :
    Final seen executed expectedQty (k + 1) ⟨.partiallyFilled, executions, some q⟩ ↔
      ∀ j, k ≤ j → executed j ≤ max 0 q := by
  simp only [Final, Option.some.injEq, exists_eq_left', max_eq_right hpos.le,
    Nat.add_le_add_iff_right]

/-- What an answer settled at a poll says, and whether that is final. -/
theorem final_of_resolve (hseen : Steady seen executed) {k : ℕ} {state : ResolutionState}
    {executions : List ExecutionRow}
    (hs : resolve (seen k).order (seen k).executions expectedQty = some state) :
    Final seen executed expectedQty (k + 1) ⟨state, executions, (seen k).executed⟩ ↔
      (seen k).Whole expectedQty (executed k) ∨
        (¬ (seen k).NearlyWhole expectedQty (executed k) ∧
          ∀ j, k ≤ j → executed j ≤ max 0 (executed k)) := by
  have hq := hseen.executed_eq k
  rw [resolve_eq _ hq] at hs
  rw [hq]
  split_ifs at hs with h₁ h₂ h₃ h₄ <;> obtain rfl := Option.some.inj hs
  · obtain ⟨hpos, hfilled | ⟨r, hr, hr0, hle⟩⟩ := h₁
    · exact ⟨fun _ => .inl ⟨hpos, .inl hfilled⟩, fun _ => ⟨k, rfl, .inl hfilled⟩⟩
    · constructor
      · rintro ⟨k', hk', hfilled | ⟨r', hr', hle'⟩⟩ <;> obtain rfl : k' = k := by omega
        · exact .inl ⟨hpos, .inl hfilled⟩
        · obtain rfl : r = r' := by simpa [hr] using hr'
          exact .inl ⟨hpos, .inr ⟨r, hr, hr0, hle'⟩⟩
      · rintro (⟨-, hfilled | ⟨r', hr', -, hle'⟩⟩ | ⟨hnearly, -⟩)
        · exact ⟨k, rfl, .inl hfilled⟩
        · exact ⟨k, rfl, .inr ⟨r', hr', hle'⟩⟩
        · exact ⟨k, rfl, .inr ⟨r, hr, not_lt.1 fun hlt => hnearly ⟨hpos, r, hr, hr0, hlt, hle⟩⟩⟩
  · rw [final_partiallyFilled h₂.1]
    simp [not_whole h₁]
  · rw [final_partiallyFilled h₄]
    simp [not_whole h₁]
  · -- the order failed, and nothing was executed before
    have hle := not_lt.1 h₄
    simp only [Final, not_whole h₁, false_or, not_false_eq_true, true_and, max_eq_left hle]
    refine ⟨fun h j _ => h j, fun h j => ?_⟩
    rcases le_total k j with hkj | hjk
    · exact h j hkj
    · exact (hseen.mono hjk).trans hle

theorem final_of_late (hseen : Steady seen executed) {k : ℕ} :
    Final seen executed expectedQty (k + 1) (lateAnswer (seen k)) ↔
      executed k ≤ 0 ∨ ∀ j, k ≤ j → executed j ≤ max 0 (executed k) := by
  rw [lateAnswer, hseen.executed_eq k, Option.any_some]
  by_cases hpos : 0 < executed k
  · rw [if_pos (by simpa using hpos), final_partiallyFilled hpos]
    simp [hpos]
  · rw [if_neg (by simpa using hpos)]
    simp [Final, not_lt.1 hpos]

theorem Polled.unique {t : List (Event Memory JsError Op.Val)} {l l' : List Observation}
    (h : Polled t l) (h' : Polled t l') : l = l' := by
  have horders := h.orders.symm.trans h'.orders
  have hexecutions := h.executions.symm.trans h'.executions
  clear h h'
  induction l generalizing l' with
  | nil => simpa using horders
  | cons o l ih =>
    rcases l' with _ | ⟨o', l'⟩
    · simp at horders
    · simp only [List.map_cons, List.cons.injEq] at horders hexecutions
      obtain ⟨order, executions⟩ := o
      obtain ⟨order', executions'⟩ := o'
      obtain ⟨rfl, horders⟩ := horders
      obtain ⟨rfl, hexecutions⟩ := hexecutions
      rw [ih horders hexecutions]

/-! ## Runs -/

/-- The order of the example. -/
def exampleOrder (status qty cumExecQty : String) : OrderRow where
  orderLinkId := some (.entry "BTCUSDT")
  orderStatus := some (.str status)
  reduceOnly := none
  qty := some (.str qty)
  cumExecQty := some (.str cumExecQty)

/-- The trace of a wait whose first poll shows `row`. -/
def exampleTrace (row : OrderRow) : List (Event Memory JsError Op.Val) :=
  let m := Memory.started false false 0
  [.call m .polls (.ok 1), .call m .toss (.ok true),
    .call m (.bybit (.realtimeOrder "BTCUSDT" (.entry "BTCUSDT"))) (.ok [row]),
    .call m (.bybit (.executions "BTCUSDT" (.entry "BTCUSDT"))) (.ok [])]

theorem trace_example (row : OrderRow) (state : ResolutionState)
    (hs : resolve (some row) [] (some 2) = some state) :
    Prog.Trace (waitForResolution "BTCUSDT" (.entry "BTCUSDT") (some 2)) (exampleTrace row)
      (.done (.ok ⟨state, [], cumulativeQty (some row) []⟩)) := by
  refine .call (.call (.call (.call ?_)))
  dsimp only [exampleTrace, Prog.bind, Prog.ret]
  rw [hs]
  exact .refl _

/-- An answer is final just when it was given at a poll after which nothing was executed. -/
theorem resolution_final_iff (hseen : Steady seen executed)
    (h : Prog.Trace (waitForResolution symbol linkId expectedQty) t (.done (.ok resolution)))
    {n made : ℕ} (hn : t.filterMap pollsSeen = [n])
    (hmade : Polled t ((List.range made).map seen)) :
    Final seen executed expectedQty made resolution ↔ Settled seen executed expectedQty n := by
  obtain ⟨n', l, hn', hl, hloop⟩ := trace_waitForResolution h
  obtain rfl : n' = n := by simpa [hn'] using hn
  rw [hl.unique hmade, List.range_eq_range'] at hloop
  rcases hloop.answers hseen rfl with ⟨rfl, rfl, rfl⟩ | ⟨k, rfl, hk, hbefore, hanswer⟩
  · -- no time to poll: the answer is that nothing is known
    exact ⟨fun _ k hk => absurd hk.lt (Nat.not_lt_zero k), fun _ => trivial⟩
  · simp only [Nat.zero_add] at hbefore hanswer
    have hat : AnswersAt expectedQty seen executed n' k := by
      refine ⟨hk, hbefore, ?_⟩
      rcases hanswer with ⟨state, hs, -⟩ | ⟨-, hlast, -⟩
      · left
        by_contra hnone
        rw [← resolve_eq_none_iff (hseen.executed_eq k), hs] at hnone
        exact nomatch hnone
      · exact .inr hlast
    have hsettled : Settled seen executed expectedQty n' ↔
        (seen k).Whole expectedQty (executed k) ∨
          (¬ (seen k).Tells expectedQty (executed k) ∧ executed k ≤ 0) ∨
          (¬ (seen k).NearlyWhole expectedQty (executed k) ∧
            ∀ j, k ≤ j → executed j ≤ max 0 (executed k)) :=
      ⟨fun h => h k hat, fun h k' hk' => hk'.unique hat ▸ h⟩
    rw [hsettled]
    rcases hanswer with ⟨state, hs, rfl⟩ | ⟨hnone, -, rfl⟩
    · have htells : (seen k).Tells expectedQty (executed k) := by
        by_contra hnone
        rw [← resolve_eq_none_iff (hseen.executed_eq k), hs] at hnone
        exact nomatch hnone
      rw [final_of_resolve hseen hs]
      simp [htells]
    · have hwhole : ¬ (seen k).Whole expectedQty (executed k) := by
        rintro ⟨hpos, hf | ⟨r, hr, hr0, -⟩⟩
        · exact hnone (.inl ⟨hpos, .inl hf⟩)
        · exact hnone (.inl ⟨hpos, .inr (.inr ⟨r, hr, hr0⟩)⟩)
      have hnearly : ¬ (seen k).NearlyWhole expectedQty (executed k) := by
        rintro ⟨hpos, r, hr, hr0, -, -⟩
        exact hnone (.inl ⟨hpos, .inr (.inr ⟨r, hr, hr0⟩)⟩)
      rw [final_of_late hseen]
      simp [hwhole, hnone, hnearly]

/-- The events of a poll that shows `row` and `executions`. -/
def pollEvents (row : OrderRow) (executions : List ExecutionRow) :
    List (Event Memory JsError Op.Val) :=
  let m := Memory.started false false 0
  [.call m .toss (.ok true),
    .call m (.bybit (.realtimeOrder "BTCUSDT" (.entry "BTCUSDT"))) (.ok [row]),
    .call m (.bybit (.executions "BTCUSDT" (.entry "BTCUSDT"))) (.ok executions)]

/-- A poll that tells nothing leaves it to the others. -/
theorem trace_again {row : OrderRow} {executions last : List ExecutionRow} {n : ℕ}
    {order : Option OrderRow} {answer : Prog Memory JsError Op.Val Resolution}
    (hs : resolve (some row) executions expectedQty = none)
    (h : Prog.Trace (poll "BTCUSDT" (.entry "BTCUSDT") expectedQty n (some row) executions) t
      answer) :
    Prog.Trace (poll "BTCUSDT" (.entry "BTCUSDT") expectedQty (n + 1) order last)
      (pollEvents row executions ++ t) answer := by
  refine .call (.call (.call ?_))
  dsimp only [Prog.bind, Prog.ret]
  rw [hs]
  exact h

theorem trace_settled {row : OrderRow} {executions last : List ExecutionRow} {n : ℕ}
    {order : Option OrderRow} {state : ResolutionState}
    (hs : resolve (some row) executions expectedQty = some state) :
    Prog.Trace (poll "BTCUSDT" (.entry "BTCUSDT") expectedQty (n + 1) order last)
      (pollEvents row executions)
      (.done (.ok ⟨state, executions, cumulativeQty (some row) executions⟩)) := by
  refine .call (.call (.call ?_))
  dsimp only [Prog.bind, Prog.ret]
  rw [hs]
  exact .refl _

/-- The order is executed in two parts. -/
def exampleExecutions : List ExecutionRow :=
  [⟨some (.str "1"), some (.str "1.5")⟩, ⟨some (.str "2"), some (.str "0.5")⟩]

/-- What the polls of an order see that is new for two polls; then the executions are listed, and
    only later does the order show them. -/
def exampleSeen (i : ℕ) : Observation :=
  if i < 2 then ⟨some (exampleOrder "New" "2" "0"), []⟩
  else if i = 2 then ⟨some (exampleOrder "New" "2" "0"), exampleExecutions⟩
  else ⟨some (exampleOrder "Filled" "2" "2"), exampleExecutions⟩

theorem exampleSeen_steady : Steady exampleSeen fun i => if i < 2 then 0 else 2 := by
  have hnew : (Observation.mk (some (exampleOrder "New" "2" "0")) []).executed = some 0 := by
    decide +kernel
  have hlisted : (Observation.mk (some (exampleOrder "New" "2" "0")) exampleExecutions).executed =
      some 2 := by decide +kernel
  have hfilled : (Observation.mk (some (exampleOrder "Filled" "2" "2")) exampleExecutions).executed =
      some 2 := by decide +kernel
  refine ⟨fun i => ?_, fun i j hij => ?_, fun i j hij hi => ?_⟩
  · rcases lt_trichotomy i 2 with h | rfl | h
    · simpa [exampleSeen, h] using hnew
    · simpa [exampleSeen] using hlisted
    · simpa [exampleSeen, h.not_gt, h.ne'] using hfilled
  · by_cases hi : i < 2
    · by_cases hj : j < 2 <;> norm_num [hi, hj]
    · simp [hi, show ¬ j < 2 by omega]
  · rcases le_or_gt i 2 with h | h
    · -- the order is not over yet
      have hstatus : (exampleSeen i).status = "New" := by
        rcases h.lt_or_eq with h | rfl
        · rw [exampleSeen, if_pos h]
          decide +kernel
        · decide +kernel
      rw [hstatus] at hi
      exact absurd hi (by decide)
    · simp only [exampleSeen, h.not_gt, h.ne', (h.trans_le hij).not_gt, (h.trans_le hij).ne',
        if_false]

/-- At the third poll the wait answers that the order is filled. -/
theorem resolution_final_iff_filled :
    Final exampleSeen (fun i => if i < 2 then 0 else 2) (some 2) 3
        ⟨.filled, exampleExecutions, some 2⟩ ↔
      Settled exampleSeen (fun i => if i < 2 then 0 else 2) (some 2) 5 := by
  have hnew : resolve (some (exampleOrder "New" "2" "0")) [] (some 2) = none := by decide +kernel
  have hlisted : resolve (some (exampleOrder "New" "2" "0")) exampleExecutions (some 2) =
      some .filled := by decide +kernel
  have hq : cumulativeQty (some (exampleOrder "New" "2" "0")) exampleExecutions = some 2 := by
    decide +kernel
  have htrace : Prog.Trace (waitForResolution "BTCUSDT" (.entry "BTCUSDT") (some 2))
      (.call (.started false false 0) .polls (.ok 5) ::
        (pollEvents (exampleOrder "New" "2" "0") [] ++ (pollEvents (exampleOrder "New" "2" "0") [] ++
          pollEvents (exampleOrder "New" "2" "0") exampleExecutions)))
      (.done (.ok ⟨.filled, exampleExecutions, some 2⟩)) := by
    refine .call ?_
    change Prog.Trace (poll "BTCUSDT" (.entry "BTCUSDT") (some 2) 5 none []) _ _
    exact trace_again hnew (trace_again hnew (hq ▸ trace_settled hlisted))
  exact resolution_final_iff exampleSeen_steady htrace rfl ⟨rfl, rfl⟩

/-- A poll between two fills: the wait answers that half of the order was executed, and then
    all of it is. -/
theorem resolution_not_final :
    ∃ seen executed resolution, Steady seen executed ∧
      Prog.Trace (waitForResolution "BTCUSDT" (.entry "BTCUSDT") (some 2))
        (exampleTrace (exampleOrder "PartiallyFilled" "2" "1")) (.done (.ok resolution)) ∧
      Polled (exampleTrace (exampleOrder "PartiallyFilled" "2" "1")) ((List.range 1).map seen) ∧
      resolution.state = .partiallyFilled ∧ resolution.cumulativeQty = some 1 ∧
      (seen 1).status = "Filled" ∧ executed 1 = 2 ∧ ¬ Final seen executed (some 2) 1 resolution := by
  have hq₁ : cumulativeQty (some (exampleOrder "PartiallyFilled" "2" "1")) [] = some 1 := by
    decide +kernel
  have hq₂ : cumulativeQty (some (exampleOrder "Filled" "2" "2")) [] = some 2 := by decide +kernel
  have htrace := trace_example (exampleOrder "PartiallyFilled" "2" "1") .partiallyFilled
    (by decide +kernel)
  rw [hq₁] at htrace
  -- The order is seen half filled once and filled ever after; the loop stops at the first sight.
  refine ⟨fun i => if i = 0 then ⟨some (exampleOrder "PartiallyFilled" "2" "1"), []⟩
      else ⟨some (exampleOrder "Filled" "2" "2"), []⟩, fun i => if i = 0 then 1 else 2, _,
    ⟨fun i => ?_, fun i j hij => ?_, fun i j hij hi => ?_⟩, htrace, ⟨rfl, rfl⟩, rfl, rfl, rfl, rfl, ?_⟩
  · by_cases h : i = 0
    · simpa [h] using (show Observation.executed ⟨_, _⟩ = _ from hq₁)
    · simpa [h] using (show Observation.executed ⟨_, _⟩ = _ from hq₂)
  · by_cases hi : i = 0
    · by_cases hj : j = 0 <;> norm_num [hi, hj]
    · simp [hi, show j ≠ 0 by omega]
  · by_cases h : i = 0
    · rw [if_pos h] at hi
      exact absurd hi (by decide +kernel)
    · simp [h, show j ≠ 0 by omega]
  · rintro ⟨q, hq, hle⟩
    obtain rfl : 1 = q := by simpa using hq
    have := hle 1 (by omega)
    norm_num at this

end

end BybitClient

end IntradayBot.Node
