import IntradayBot.Coop.Solo
import IntradayBot.Node.Policy

/-!
# A managed trade

`trade` runs `TradeManager.cycle` on one managed command, again and again. A cycle
may be cut at any of its awaits: the next one then finds the record that was last
put. Beside the cycle, the rest of the service and the exchange move as they like,
but for the record of this trade and what was requested for it (`Meanwhile`).

The exchange answers as it pleases, but it tells the truth about the orders of the
trade: an order that was accepted is found, among the active ones or in the history,
and only such an order is found or has executions. What the trade manager requested
is remembered (`TradeExchange`), with the rows that it had been answered.

What a cycle does is proved from its record and from a part of what the exchange
remembers (`Seen`), which only the cycle changes (`Does`).
-/

namespace IntradayBot.Node

open Coop

/-! ## The exchange -/

/-- An order of the trade manager that was accepted, with the rows of positions and
    of instruments last answered before. -/
structure CloseOrder where
  request : OrderRequest
  positions : List PositionRow
  instruments : List InstrumentRow

/-- What the exchange answered and was requested for a trade. -/
structure TradeExchange where
  /-- The positions last answered. -/
  positions : List PositionRow
  /-- The tickers last answered. -/
  tickers : List TickerRow
  /-- The instruments last answered. -/
  instruments : List InstrumentRow
  /-- The order that the last look among the active ones did not find. -/
  unlisted : Option LinkId
  /-- The orders accepted, the last one first. -/
  created : List CloseOrder
  /-- The stops requested, the last one first. -/
  stops : List StopRequest

/-- Nothing was answered or requested. -/
def TradeExchange.blank : TradeExchange := ⟨[], [], [], none, [], []⟩

/-- The order of a link id was accepted. -/
def TradeExchange.Accepted (x : TradeExchange) (link : LinkId) : Prop :=
  ∃ o ∈ x.created, o.request.orderLinkId = link

/-- An order is accepted. -/
def TradeExchange.accept (x : TradeExchange) (request : OrderRequest) : TradeExchange :=
  { x with unlisted := none, created := ⟨request, x.positions, x.instruments⟩ :: x.created }

/-- How a request to the exchange may be answered. -/
def TradeExchange.Answers (x : TradeExchange) :
    (o : BybitOp) → Except JsError o.Val → TradeExchange → Prop
  | .position _, a, x' => x' = { x with positions := a.toOption.getD x.positions }
  | .ticker _, a, x' => x' = { x with tickers := a.toOption.getD x.tickers }
  | .instrument _, a, x' =>
    (∀ rows, a = .ok rows → ∀ row ∈ rows, TradeManager.Stepped row) ∧
      x' = { x with instruments := a.toOption.getD x.instruments }
  | .realtimeOrder _ link, a, x' =>
    (∀ rows, a = .ok rows → rows ≠ [] → x.Accepted link) ∧
      x' = { x with unlisted := if a.toOption.any List.isEmpty then some link else none }
  | .orderHistory _ link, a, x' =>
    (∀ rows, a = .ok rows → rows ≠ [] → x.Accepted link) ∧
      (∀ rows, a = .ok rows → x.unlisted = some link → x.Accepted link → rows ≠ []) ∧ x' = x
  | .executions _ link, a, x' => (∀ rows, a = .ok rows → rows ≠ [] → x.Accepted link) ∧ x' = x
  | .createOrder request, a, x' => x' = x.accept request ∨ (∃ e, a = .error e) ∧ x' = x
  | .setTradingStop request, _, x' => x' = { x with stops := request :: x.stops }
  | _, _, x' => x' = x

/-! ## The system -/

/-- What is outside of the service. -/
structure TradeRemote where
  tables : Tables
  exchange : TradeExchange

/-- The memory of the service, and what is outside of it. -/
abbrev TradeWorld := World Memory TradeRemote

/-- The record of a trade in memory. -/
def recordOf (candidateKey : String) (w : TradeWorld) : Option ManagementState :=
  w.mem.management.get? candidateKey

/-- Its row in the table. -/
def rowOf (candidateKey : String) (w : TradeWorld) : Option ManagementState :=
  w.remote.tables.runtimeState.get? candidateKey

/-- How a request of the cycle may be answered. -/
def tradeRespond : (o : Op) → TradeWorld → Except JsError o.Val → TradeRemote → Prop
  | .db o, w, a, r => ∃ out, a = (o.answer out w.remote.tables).1 ∧
      r = { w.remote with tables := (o.answer out w.remote.tables).2 }
  | .bybit o, w, a, r => w.remote.exchange.Answers o a r.exchange ∧ r.tables = w.remote.tables
  | .toss, w, a, r => (∃ b, a = .ok b) ∧ r = w.remote
  | .polls, w, a, r => (∃ n, a = .ok n) ∧ r = w.remote
  | .held _, w, _, r => r = w.remote

/-- The rest of the service and the exchange move, beside a trade. -/
structure Meanwhile (candidateKey : String) (w w' : TradeWorld) : Prop where
  record : recordOf candidateKey w' = recordOf candidateKey w
  row : rowOf candidateKey w' = rowOf candidateKey w
  exchange : w'.remote.exchange = w.remote.exchange

/-- The side of a trade; without one, a cycle does nothing. -/
def Command.tradeSide (command : Command) : Side :=
  (Side.ofText? (Json.textOrEmpty (command.payload.get "side"))).getD .buy

/-- A turn for a managed command. -/
def managedTurn (command : Command) : Proc Unit := do
  let partially ← Prog.request Op.toss
  let _ ← TradeManager.cycle
    { command with state := if partially then .partiallyFilled else .managing }
  return ()

/-- A program for the trade of a key, again and again, which may be cut. -/
def repeating (key : String) (turn : Proc Unit) :
    System Unit Memory TradeRemote JsError Op.Val where
  body _ := turn
  respond _ := tradeRespond
  env := Meanwhile key
  cuts := True

/-- The management of a trade. -/
abbrev trade (command : Command) : System Unit Memory TradeRemote JsError Op.Val :=
  repeating command.candidateKey (managedTurn command)

/-- The trade before its management. -/
structure TradeStarts (command : Command) (w : TradeWorld) : Prop where
  record : recordOf command.candidateKey w = none
  row : rowOf command.candidateKey w = none
  exchange : w.remote.exchange = .blank

theorem TradeStarts.created {command : Command} {w : TradeWorld} (h : TradeStarts command w) :
    w.remote.exchange.created = [] := by
  rw [h.exchange]
  rfl

theorem TradeStarts.stops {command : Command} {w : TradeWorld} (h : TradeStarts command w) :
    w.remote.exchange.stops = [] := by
  rw [h.exchange]
  rfl

/-! ## What leaves the trade alone -/

/-- A segment that leaves the record of a key alone. -/
def Unmanaged (candidateKey : String) (f : Memory → Memory) : Prop :=
  ∀ m, (f m).management.get? candidateKey = m.management.get? candidateKey

/-- A request that neither changes a record nor tells or asks the exchange anything
    that is remembered. -/
def Aside : Op → Prop
  | .db o => o.Unmanaging
  | .bybit (.position _) | .bybit (.ticker _) | .bybit (.instrument _)
  | .bybit (.realtimeOrder _ _) | .bybit (.createOrder _) | .bybit (.setTradingStop _) => False
  | _ => True

/-- Such a request, or a look for an order. -/
def Lookup : Op → Prop
  | .bybit (.realtimeOrder _ _) => True
  | o => Aside o

theorem Aside.lookup {o : Op} (h : Aside o) : Lookup o := by
  rcases o with o | o | _ | _ | _
  · exact h
  · rcases o <;> trivial
  all_goals trivial

section aside

variable {key : String} {α : Type}

theorem unmanaged_id : Unmanaged key fun m => m := fun _ => rfl

theorem unmanaged_degrade (message : String) : Unmanaged key (·.degrade message) := fun _ => rfl

theorem unmanaged_recordOrderDirect (command : Command) :
    Unmanaged key (HybridRepository.recordOrderDirect command) := fun m => by
  rw [HybridRepository.recordOrderDirect]
  split <;> rfl

theorem unmanaged_transitionDirect (command : Command) (nextState : CommandState) :
    Unmanaged key fun m => (HybridRepository.transitionDirect command nextState m).2 := fun m => by
  dsimp only
  rw [HybridRepository.transitionDirect]
  split
  · rfl
  · split <;> rfl

/-- A program that only records and looks around. -/
abbrev Leaves (key : String) (p : Proc α) : Prop := p.All (Unmanaged key) Aside

/-- A program that looks for orders as well. -/
abbrev Looks (key : String) (p : Proc α) : Prop := p.All (Unmanaged key) Lookup

theorem Looks.of_leaves {p : Proc α} (h : Leaves key p) : Looks key p :=
  h.mono (fun _ hf => hf) fun _ ho => ho.lookup

theorem recordOrder_leaves (command : Command) (status : String) :
    Leaves key (HybridRepository.recordOrder command status) :=
  HybridRepository.all_recordOrder (unmanaged_recordOrderDirect command) unmanaged_degrade trivial

theorem insertFills_leaves (candidateKey : String) (executions : List ExecutionRow) :
    Leaves key (HybridRepository.insertFills candidateKey executions) := by
  induction executions with
  | nil => exact .ret _
  | cons execution executions ih =>
    rw [HybridRepository.insertFills]
    split
    · exact ih
    · exact .bind (.request trivial) fun _ => ih

theorem recordFills_leaves (command : Command) (executions : List ExecutionRow) :
    Leaves key (HybridRepository.recordFills command executions) := by
  refine .bind (.read _ unmanaged_id) fun usable => ?_
  split
  · exact HybridRepository.all_orDegrade unmanaged_degrade (insertFills_leaves _ _)
  · exact .ret _

theorem executionTransition_leaves (command : Command) (nextState : CommandState) (now : ℕ) :
    Leaves key (ExecutionRepository.transition command nextState now) := by
  rw [ExecutionRepository.transition]
  split
  · refine .bind (.request trivial) fun row => ?_
    rcases row with _ | row
    · exact .throw _
    · exact .ret _
  · exact .throw _

theorem transition_leaves (command : Command) (nextState : CommandState) :
    Leaves key (HybridRepository.transition command nextState) := by
  refine .bind (.atomically (unmanaged_transitionDirect _ _)) fun direct => ?_
  rcases direct with ⟨_ | moved, now⟩
  · refine .handle (.bind (executionTransition_leaves _ _ _) fun _ => .ret _) fun e => ?_
    exact .atomically fun m => rfl
  · exact .ret _

theorem finishClosed_leaves (command : Command) :
    Leaves key (TradeManager.finishClosed command) := by
  rw [TradeManager.finishClosed]
  split
  · exact .bind (transition_leaves _ _) fun _ =>
      .bind (recordOrder_leaves _ _) fun _ => transition_leaves _ _
  · exact .bind (recordOrder_leaves _ _) fun _ => transition_leaves _ _

theorem findOrder_looks (symbol : String) (link : LinkId) :
    Looks key (BybitClient.findOrder symbol link) := by
  refine .bind (.request trivial) fun rows => ?_
  rcases rows with _ | ⟨current, rows⟩
  · exact .bind (.request trivial) fun _ => .ret _
  · exact .ret _

theorem poll_looks (symbol : String) (link : LinkId) (expectedQty : Option ℚ) (n : ℕ)
    (order : Option OrderRow) (executions : List ExecutionRow) :
    Looks key (BybitClient.poll symbol link expectedQty n order executions) := by
  induction n generalizing order executions with
  | zero => exact .ret _
  | succ n ih =>
    refine .bind (.par trivial (findOrder_looks _ _) (.request trivial)) fun _ => ?_
    dsimp only
    split
    · exact .ret _
    · exact ih _ _

theorem waitForResolution_looks (symbol : String) (link : LinkId) (expectedQty : Option ℚ) :
    Looks key (BybitClient.waitForResolution symbol link expectedQty) :=
  .bind (.request trivial) fun _ => poll_looks _ _ _ _ _ _

end aside

/-! ## What a cycle does -/

/-- What is known of a trade: its record, and something of the exchange. -/
structure Seen (δ : Type) where
  record : Option ManagementState
  exchange : δ

/-- What is known, where `look` shows only a part of the exchange. -/
def Seen.look {δ : Type} (look : TradeExchange → δ) (s : Seen TradeExchange) : Seen δ :=
  ⟨s.record, look s.exchange⟩

section does

variable {δ α β : Type} (key : String) (I : Seen TradeExchange → Prop) (look : TradeExchange → δ)

/-- What there is to know of the trade of a key. -/
def seen (w : TradeWorld) : Seen TradeExchange := ⟨recordOf key w, w.remote.exchange⟩

/-- What stays meanwhile, where `look` shows what a program knows of the exchange. -/
def showing (w : TradeWorld) : Seen δ × Option ManagementState :=
  ((seen key w).look look, rowOf key w)

/-- The contract of a cycle: an invariant of the trade, and that a trade without a
    record in memory has none in the table. -/
def managing : Contract Unit Memory TradeRemote :=
  .alone (fun w => (recordOf key w = none → rowOf key w = none) ∧ I (seen key w))
    (.same (showing key look))

variable {key I look} {turn : Proc Unit} {ok : Condition Unit Memory TradeRemote JsError Op.Val}
  {P P' : Seen δ → Prop} {Q Q' : α → Seen δ → Prop}

theorem stable_seen (P : Seen δ → Prop) :
    (managing key I look).Stable () fun w => P ((seen key w).look look) :=
  Contract.stable_same fun v : Seen δ × Option ManagementState => P v.1

theorem showing_of_showing {δ' : Type} {look' : TradeExchange → δ'}
    (h : ∀ x x', look x' = look x → look' x' = look' x) (w w' : TradeWorld)
    (hw : showing key look w' = showing key look w) :
    showing key look' w' = showing key look' w := by
  obtain ⟨hs, hrow⟩ := Prod.mk.inj hw
  obtain ⟨hrec, hx⟩ := Seen.mk.inj hs
  exact Prod.ext (congrArg₂ Seen.mk hrec (h _ _ hx)) hrow

/-- A request aside changes nothing of the trade. -/
theorem Aside.kept {o : Op} (h : Aside o) {w : TradeWorld} {a : Except JsError o.Val}
    {r : TradeRemote} (ha : tradeRespond o w a r) :
    (∀ key, rowOf key ⟨w.mem, r⟩ = rowOf key w) ∧ r.exchange = w.remote.exchange := by
  rcases o with o | o | _ | _ | _
  · obtain ⟨out, -, rfl⟩ := ha
    exact ⟨fun key => congrArg (OrdMap.get? · key) (DbOp.Unmanaging.runtimeState_answer h out _), rfl⟩
  · obtain ⟨ha, ht⟩ := ha
    have hx : r.exchange = w.remote.exchange := by
      rcases o <;> first | exact h.elim | exact ha | exact ha.2 | exact ha.2.2
    exact ⟨fun key => by rw [rowOf, rowOf, ht], hx⟩
  · obtain ⟨-, rfl⟩ := ha
    exact ⟨fun _ => rfl, rfl⟩
  · obtain ⟨-, rfl⟩ := ha
    exact ⟨fun _ => rfl, rfl⟩
  · obtain rfl : r = w.remote := ha
    exact ⟨fun _ => rfl, rfl⟩

/-- Requests whose answers change nothing that `look` shows. -/
def Unseen (look : TradeExchange → δ) (A : Op → Prop) : Prop :=
  ∀ o w a r, A o → tradeRespond o w a r →
    (∀ key, rowOf key ⟨w.mem, r⟩ = rowOf key w) ∧ look r.exchange = look w.remote.exchange

/-- Requests whose answers keep `I`. -/
def Keeping (I : Seen TradeExchange → Prop) (A : Op → Prop) : Prop :=
  ∀ o w a r, A o → tradeRespond o w a r →
    ∀ record, I ⟨record, w.remote.exchange⟩ → I ⟨record, r.exchange⟩

theorem unseen_aside : Unseen look Aside := fun _ _ _ _ ho ha =>
  ⟨(ho.kept ha).1, congrArg look (ho.kept ha).2⟩

theorem keeping_aside : Keeping I Aside := fun o w a r ho ha record h => by
  rwa [(ho.kept ha).2]

theorem Unseen.rely {A : Op → Prop} (hA : Unseen look A) {o : Op} {w : TradeWorld}
    {a : Except JsError o.Val} {r : TradeRemote} (ho : A o) (ha : tradeRespond o w a r) :
    showing key look ⟨w.mem, r⟩ = showing key look w :=
  Prod.ext (congrArg (Seen.mk (recordOf key w)) (hA o w a r ho ha).2) ((hA o w a r ho ha).1 key)

theorem Unmanaged.seen {f : Memory → Memory} (hf : Unmanaged key f) (w : TradeWorld) :
    seen key ⟨f w.mem, w.remote⟩ = seen key w :=
  congrArg (Seen.mk · w.remote.exchange) (hf w.mem)

/-- Unseen requests are, to the cycle, like moves of the rest. -/
theorem Unseen.harmless {A : Op → Prop} (hA : Unseen look A) :
    Harmless (repeating key turn) ok (managing key I look) () (Unmanaged key) A where
  sync _ w hf _ _ := Prod.ext (congrArg (Seen.look look) (hf.seen w)) rfl
  call _ _ _ _ ho _ ha _ := hA.rely ho ha

/-- So are those that keep the invariant, and they keep the contract. -/
theorem Unseen.calm {A : Op → Prop} (hA : Unseen look A) (hI : Keeping I A) :
    Calm (repeating key turn) ok (managing key I look) () (Unmanaged key) A where
  sync f w hf hi hok := by
    have harmless : Harmless (repeating key turn) ok (managing key I look) () (Unmanaged key) A :=
      hA.harmless
    refine ⟨Contract.alone_keeps.2 ⟨fun h => hi.1 ((hf w.mem).symm.trans h), ?_⟩,
      harmless.sync f w hf hi hok⟩
    rw [hf.seen w]
    exact hi.2
  call o w a r ho hi ha _ :=
    ⟨Contract.alone_keeps.2 ⟨fun h => ((hA o w a r ho ha).1 key).trans (hi.1 h),
      hI o w a r ho ha _ hi.2⟩, hA.rely ho ha⟩

variable (I look key ok) in
/-- From what is known as `P` says, the program keeps the invariant, and what it returns
    is as `Q` says; it may throw any time. -/
def Does (P : Seen δ → Prop) (p : Proc α) (Q : α → Seen δ → Prop) : Prop :=
  Triple (repeating key (.ret ())) ok (managing key I look) ()
    (fun w => P ((seen key w).look look)) p
    (fun a w => Q a ((seen key w).look look)) fun _ _ => True

namespace Does

theorem conseq {p : Proc α} (h : Does key I look ok P p Q)
    (hP : ∀ s, I s → P' (s.look look) → P (s.look look))
    (hQ : ∀ a s, I s → Q a (s.look look) → Q' a (s.look look)) :
    Does key I look ok P' p Q' :=
  Triple.conseq h (fun _ hi => hP _ hi.2) (fun a _ hi => hQ a _ hi.2) fun _ _ _ h => h

theorem pre {p : Proc α} (h : Does key I look ok P p Q)
    (hP : ∀ s, I s → P' (s.look look) → P (s.look look)) : Does key I look ok P' p Q :=
  h.conseq hP fun _ _ _ h => h

theorem of_forall {p : Proc α} {c : Prop} (hc : ∀ s, I s → P (s.look look) → c)
    (h : c → Does key I look ok P p Q) : Does key I look ok P p Q :=
  Triple.of_forall fun _ hi hP => h (hc _ hi.2 hP)

theorem bind {p : Proc α} {f : α → Proc β} {R : β → Seen δ → Prop}
    (hp : Does key I look ok P p Q) (hf : ∀ a, Does key I look ok (Q a) (f a) R) :
    Does key I look ok P (p.bind f) R :=
  Triple.bind hp hf

theorem ret {a : α} (h : ∀ s, I s → P (s.look look) → Q a (s.look look)) :
    Does key I look ok P (Prog.ret a) Q :=
  Triple.done_ok (stable_seen _) fun _ hi hP => h _ hi.2 hP

theorem throw (e : JsError) : Does key I look ok P (Prog.throw e) Q :=
  Triple.done_error (.const _) fun _ _ _ => trivial

theorem ofExcept {r : Except JsError α}
    (h : ∀ a, r = .ok a → ∀ s, I s → P (s.look look) → Q a (s.look look)) :
    Does key I look ok P (Prog.ofExcept r) Q := by
  rcases r with e | a
  · exact throw e
  · exact ret (h a rfl)

theorem require {c : Prop} [Decidable c] {e : JsError} {Q : Unit → Seen δ → Prop}
    (h : c → ∀ s, I s → P (s.look look) → Q () (s.look look)) :
    Does key I look ok P (Prog.require c e) Q :=
  Triple.require (stable_seen _) (.const _) (fun hc _ hi hP => h hc _ hi.2 hP)
    fun _ _ _ _ => trivial

/-- A program whose requests are unseen changes nothing of what is known. -/
theorem unseen {A : Op → Prop} (hA : Unseen look A) (hI : Keeping I A) {p : Proc α}
    (h : p.All (Unmanaged key) A) : Does key I look ok P p fun _ => P :=
  ((hA.calm hI).triple h (stable_seen P)).conseq (fun _ _ h => h) (fun _ _ _ h => h)
    fun _ _ _ _ => trivial

/-- So does a program that only records and looks around. -/
theorem leaves {p : Proc α} (h : Leaves key p) :
    Does key I look ok P p fun _ => P :=
  unseen unseen_aside keeping_aside h

section

variable {δ' : Type} {look' : TradeExchange → δ'}

/-- What is proved of a part of what is shown is proved. -/
theorem ease (h : ∀ x x', look x' = look x → look' x' = look' x) {p : Proc α}
    {P : Seen δ' → Prop} {Q : α → Seen δ' → Prop} {P' : Seen δ → Prop} {Q' : α → Seen δ → Prop}
    (hp : Does key I look' ok P p Q) (hP : ∀ s, I s → P' (s.look look) → P (s.look look'))
    (hQ : ∀ a s, I s → Q a (s.look look') → Q' a (s.look look)) :
    Does key I look ok P' p Q' :=
  (Triple.ease (Contract.alone_eases (showing_of_showing h)) hp).conseq
    (fun _ hi => hP _ hi.2) (fun a _ hi => hQ a _ hi.2) fun _ _ _ h => h

end

/-- Two programs run concurrently, each of them knowing what the other does not change. -/
theorem both {δ₁ δ₂ : Type} {f : TradeExchange → δ₁} {g : TradeExchange → δ₂}
    {A B : Op → Prop} {p : Proc α} {q : Proc β} {U : Seen δ₁ → Prop} {V : Seen δ₂ → Prop}
    {Q : α → Seen δ₁ → Prop} {T : β → Seen δ₂ → Prop} {R : α × β → Seen δ → Prop}
    (hf : ∀ x x', look x' = look x → f x' = f x) (hg : ∀ x x', look x' = look x → g x' = g x)
    (hA : Unseen g A) (hB : Unseen f B) (hp : p.All (Unmanaged key) A)
    (hq : q.All (Unmanaged key) B) (hpU : Does key I f ok U p Q) (hqV : Does key I g ok V q T)
    (hU : ∀ s, I s → P (s.look look) → U (s.look f))
    (hV : ∀ s, I s → P (s.look look) → V (s.look g))
    (hR : ∀ a b s, I s → Q a (s.look f) → T b (s.look g) → R (a, b) (s.look look)) :
    Does key I look ok P (Node.both p q) R := by
  refine (Triple.par_alone (showing_of_showing hf) (showing_of_showing hg)
    (fun w a r hi ha => ?_) hB.harmless hA.harmless hp hq (fun a => stable_seen (Q a))
    (fun b => stable_seen (T b)) (fun _ => .const _) (fun _ => .const _)
    (Triple.conseq hpU (fun _ hi hP => hU _ hi.2 hP) (fun _ _ _ h => h) fun _ _ _ h => h)
    (Triple.conseq hqV (fun _ hi hP => hV _ hi.2 hP) (fun _ _ _ h => h) fun _ _ _ h => h)).conseq
    (fun _ _ h => h) (fun c _ hi h => hR c.1 c.2 _ hi.2 h.1 h.2) fun _ _ _ h => h
  obtain ⟨-, rfl⟩ := ha
  exact ⟨hi, rfl⟩

/-- A request to the exchange. -/
theorem bybit {o : BybitOp} {Q : o.Val → Seen δ → Prop}
    (h : ∀ w a x, I (seen key w) →
      P ((seen key w).look look) → w.remote.exchange.Answers o a x →
      ok w (.call () (.bybit o) a) ⟨w.mem, w.remote.tables, x⟩ →
      I ⟨recordOf key w, x⟩ ∧
        ∀ v, a = .ok v → Q v ⟨recordOf key w, look x⟩) :
    Does key I look ok P (Node.bybit o) Q := by
  refine Triple.request (stable_seen _) (fun _ => stable_seen _) (fun _ => .const _) ?_
  rintro w a ⟨tables, x⟩ hi hP ⟨ha, rfl⟩ hok
  obtain ⟨hi', hQ⟩ := h w a x hi.2 hP ha hok
  refine ⟨Contract.alone_keeps.2 ⟨hi.1, hi'⟩, ?_⟩
  rcases a with e | v
  · trivial
  · exact hQ v rfl

/-- The rows that a cycle starts from are those last shown. -/
theorem rows {symbol : String} {P : Seen TradeExchange → Prop}
    {Q : List PositionRow → Seen (List PositionRow) → Prop}
    {T : List TickerRow → Seen (List TickerRow) → Prop}
    {R : List InstrumentRow → Seen (List InstrumentRow) → Prop}
    (hp : Does key I TradeExchange.positions ok (fun _ => True)
      (Node.bybit (.position symbol)) Q)
    (ht : Does key I TradeExchange.tickers ok (fun _ => True) (Node.bybit (.ticker symbol)) T)
    (hi : Does key I TradeExchange.instruments ok (fun _ => True)
      (Node.bybit (.instrument symbol)) R) :
    Does key I id ok P (Node.both (Node.bybit (.position symbol)) <|
        Node.both (Node.bybit (.ticker symbol)) (Node.bybit (.instrument symbol)))
      fun rows s => Q rows.1 (s.look TradeExchange.positions) ∧
        T rows.2.1 (s.look TradeExchange.tickers) ∧
        R rows.2.2 (s.look TradeExchange.instruments) := by
  have unseen : ∀ {γ : Type} {look' : TradeExchange → γ} {o : BybitOp},
      (∀ x a x', TradeExchange.Answers x o a x' → look' x' = look' x) →
      Unseen look' fun o' => o' = .bybit o := by
    rintro γ look' o h _ w a r rfl ⟨ha, hr⟩
    exact ⟨fun key => by rw [rowOf, rowOf, hr], h _ _ _ ha⟩
  have either : ∀ {γ : Type} {look' : TradeExchange → γ} {A A' : Op → Prop},
      Unseen look' A → Unseen look' A' → Unseen look' fun o => A o ∨ A' o :=
    fun h h' o w a r ho ha => ho.elim (fun ho => h o w a r ho ha) fun ho => h' o w a r ho ha
  -- Positions against the pair of the others, and then the pair itself: each side sees its own
  -- part.
  refine .both (f := TradeExchange.positions) (g := fun x => (x.tickers, x.instruments))
    (U := fun _ => True) (V := fun _ => True) (fun _ _ h => congrArg _ h)
    (fun _ _ h => congrArg (fun x : TradeExchange => (x.tickers, x.instruments)) h)
    (A := fun o => o = .bybit (.position symbol))
    (B := fun o => o = .bybit (.ticker symbol) ∨ o = .bybit (.instrument symbol) ∨ o = .toss)
    ?_ ?_ (.request rfl) (.par (.inr (.inr rfl)) (.request (.inl rfl)) (.request (.inr (.inl rfl))))
    hp (Q := Q) (T := fun rows s => T rows.1 ⟨s.record, s.exchange.1⟩ ∧
      R rows.2 ⟨s.record, s.exchange.2⟩) ?_ (fun _ _ _ => trivial) (fun _ _ _ => trivial)
    fun _ _ _ _ h₁ h₂ => ⟨h₁, h₂⟩
  · exact unseen fun x a x' h => by rw [h]
  · refine either (unseen fun x a x' h => by rw [h]) (either (unseen fun x a x' h => by rw [h.2]) ?_)
    rintro _ w a r rfl ⟨-, rfl⟩
    exact ⟨fun _ => rfl, rfl⟩
  · exact .both (A := fun o => o = .bybit (.ticker symbol))
      (B := fun o => o = .bybit (.instrument symbol)) (fun _ _ h => congrArg Prod.fst h)
      (fun _ _ h => congrArg Prod.snd h) (unseen fun x a x' h => by rw [h])
      (unseen fun x a x' h => by rw [h.2]) (.request rfl) (.request rfl) ht hi
      (fun _ _ _ => trivial) (fun _ _ _ => trivial) fun _ _ _ _ h₁ h₂ => ⟨h₁, h₂⟩

/-- After a call that failed, it is as `R` says. -/
theorem orDegrade {call : Proc α} {fallback : α} {R : Seen δ → Prop}
    (hcall : Triple (repeating key (.ret ())) ok (managing key I look) ()
      (fun w => P ((seen key w).look look)) call
      (fun a w => Q a ((seen key w).look look))
      fun _ w => R ((seen key w).look look))
    (h : ∀ s, I s → R (s.look look) → Q fallback (s.look look)) :
    Does key I look ok P (HybridRepository.orDegrade call fallback) Q :=
  Triple.handle hcall fun _ =>
    Does.bind (leaves (.modify (unmanaged_degrade _))) fun _ => ret h

/-- The record that is found is the one of the trade. -/
theorem getManagementState :
    Does key I look ok P (HybridRepository.getManagementState key)
      fun state s => s.record = state ∧ P s := by
  refine .bind (Q := fun c s => s.record = c.1 ∧ P s) ?_ fun ⟨known, usable⟩ => ?_
  · exact Triple.read (stable_seen _) (fun c => stable_seen fun s => s.record = c.1 ∧ P s)
      fun _ _ hP => ⟨rfl, hP⟩
  rcases known with _ | state
  · dsimp only
    split
    · -- the call finds no row, or fails: either way there is no record
      refine orDegrade (R := fun s => s.record = none ∧ P s) ?_ fun _ _ h => h
      refine Triple.bind (Q := fun state w => state = none ∧
        recordOf key w = none ∧
          P ((seen key w).look look)) ?_ ?_
      · refine Triple.request (stable_seen fun s => s.record = none ∧ P s) (fun a =>
          stable_seen fun s => a = none ∧ s.record = none ∧ P s)
          (fun _ => stable_seen fun s => s.record = none ∧ P s) fun w a r hi hP ha hok => ?_
        obtain ⟨hk, hr⟩ := (unseen_aside.calm keeping_aside).call _ w a r trivial hi ha hok
        have hP' : P ((seen key ⟨w.mem, r⟩).look look) :=
          stable_seen P w ⟨w.mem, r⟩ hr hk.inv hP.2
        refine ⟨hk, ?_⟩
        obtain ⟨out, rfl, -⟩ := ha
        rcases out with locked | reason | ⟨locked, reason⟩
        · exact ⟨hi.1 hP.1, hP.1, hP'⟩
        · exact ⟨hP.1, hP'⟩
        · exact ⟨hP.1, hP'⟩
      · rintro (_ | state)
        · exact Triple.done_ok (stable_seen fun s => s.record = none ∧ P s) fun _ _ h => h.2
        · exact fun w _ h => nomatch h.1
    · exact ret fun _ _ h => h
  · exact ret fun _ _ h => h

/-- The record is replaced. -/
theorem putManagementState {state : ManagementState} {Q : Seen δ → Prop}
    (h : ∀ s, I s → P (s.look look) → I ⟨some state, s.exchange⟩ ∧
      Q ⟨some state, look s.exchange⟩) :
    Does key I look ok P (HybridRepository.putManagementState key state)
      fun _ => Q := by
  refine .bind (Q := fun _ s => s.record = some state ∧ Q s) ?_ fun usable => ?_
  · refine Triple.atomically (stable_seen _)
      (fun _ => stable_seen fun s => s.record = some state ∧ Q s) fun w hi hP _ => ?_
    have hrec : recordOf key
        ⟨{ w.mem with management := w.mem.management.set key state }, w.remote⟩ =
          some state := OrdMap.get?_set_self _ _ _
    obtain ⟨hi', hQ⟩ := h _ hi.2 hP
    rw [seen, hrec]
    refine ⟨Contract.alone_keeps.2 ⟨fun hn => absurd (hrec.symm.trans hn) nofun, ?_⟩, rfl, hQ⟩
    rw [seen, hrec]
    exact hi'
  · split
    · refine orDegrade (R := Q) ?_ fun _ _ h => h
      refine Triple.request (stable_seen fun s => s.record = some state ∧ Q s)
        (fun _ => stable_seen Q) (fun _ => stable_seen Q) fun w a r hi hP ha hok => ?_
      -- only the row changes, and it is there as the record is
      have hx : r.exchange = w.remote.exchange := by
        obtain ⟨out, -, rfl⟩ := ha
        rfl
      have hs : seen key ⟨w.mem, r⟩ = seen key w :=
        congrArg (Seen.mk (recordOf key w)) hx
      have hQ : Q ((seen key ⟨w.mem, r⟩).look look) := hs ▸ hP.2
      refine ⟨Contract.alone_keeps.2 ⟨fun hn => absurd (hP.1.symm.trans hn) nofun, hs ▸ hi.2⟩, ?_⟩
      rcases a with e | v
      · exact hQ
      · exact hQ
    · exact ret fun _ _ h => h.2

end Does

/-- The invariant holds along the management of a trade, when every turn does its part
    from where it may start. -/
theorem trade_run (body : Does key I look ok P turn fun _ _ => True)
    (again : ∀ w, I (seen key w) → ok w (.loop ()) w ∨ ok w (.cut ()) w →
      P ((seen key w).look look))
    {w : TradeWorld} {c : Coop.Config Unit Memory TradeRemote JsError Op.Val}
    (hr : Run (repeating key turn) ok ((repeating key turn).start w) c)
    (hn : recordOf key w = none → rowOf key w = none)
    (hI : I (seen key w)) (hP : P ((seen key w).look look)) :
    I (seen key c.world) := by
  have hv : Verified (repeating key turn) ok (managing key I look)
      (fun _ w => P ((seen key w).look look)) fun _ _ => True := by
    have hrespond : (repeating key turn).respond = (repeating key (.ret ())).respond := rfl
    have hbody : Triple (repeating key turn) ok (managing key I look) ()
        (fun w => P ((seen key w).look look)) turn (fun _ _ => True) fun _ _ => True :=
      Triple.of_respond hrespond body
    refine Verified.alone hbody
      (fun w hi _ hok => again w hi.2 (.inl hok)) (fun w hi _ hok => again w hi.2 (.inr hok))
      fun w w' hi he _ => ?_
    have hs : seen key w' = seen key w := by
      rw [seen, seen, he.record, he.exchange]
    refine ⟨⟨fun h => he.row.trans (hi.1 (he.record ▸ h)), ?_⟩,
      Prod.ext (congrArg (Seen.look look) hs) he.row⟩
    exact hs ▸ hi.2
  exact (hv.run ⟨hn, hI⟩ (fun _ => hP) hr).2

end does

/-! ## Concrete answers -/

/-- What the exchange shows of a trade. -/
structure Market where
  position : PositionRow
  mark : String
  instrument : InstrumentRow

namespace Market

/-- The row of an order that was filled. -/
def filled (link : LinkId) (o : CloseOrder) : Option OrderRow :=
  if o.request.orderLinkId = link then
    some {
      orderLinkId := some link
      orderStatus := some (.str "Filled")
      reduceOnly := some (.bool true)
      qty := o.request.qty.map .num
      cumExecQty := o.request.qty.map .num }
  else none

/-- Every order is filled when it is sent. -/
def answerBybit (m : Market) : (o : BybitOp) → TradeExchange → Option (o.Val × TradeExchange)
  | .position _, x => some ([m.position], { x with positions := [m.position] })
  | .ticker _, x => some ([⟨some (.str m.mark), none⟩],
      { x with tickers := [⟨some (.str m.mark), none⟩] })
  | .instrument _, x => some ([m.instrument], { x with instruments := [m.instrument] })
  | .realtimeOrder _ link, x => some ([], { x with unlisted := some link })
  | .orderHistory _ link, x => some (x.created.filterMap (filled link), x)
  | .executions _ _, x => some ([], x)
  | .createOrder request, x => some (none, x.accept request)
  | .setTradingStop request, x => some ((), { x with stops := request :: x.stops })
  | _, _ => none

/-- The answers to a cycle, with a database that answers. -/
def answer (m : Market) : (o : Op) → TradeWorld → Option (Except JsError o.Val × TradeRemote)
  | .db o, w => some ((o.answer (.done fun _ => false) w.remote.tables).1,
      { w.remote with tables := (o.answer (.done fun _ => false) w.remote.tables).2 })
  | .bybit o, w => (m.answerBybit o w.remote.exchange).map fun (v, x) =>
      (.ok v, { w.remote with exchange := x })
  | .toss, w => some (.ok false, w.remote)
  | .polls, w => some (.ok 1, w.remote)
  | .held _, w => some (.ok none, w.remote)

theorem mem_filled {link : LinkId} {x : TradeExchange} :
    x.created.filterMap (filled link) ≠ [] ↔ x.Accepted link := by
  rw [Ne, List.filterMap_eq_nil_iff]
  simp [filled, TradeExchange.Accepted]

theorem answerBybit_truth (m : Market) (hs : TradeManager.Stepped m.instrument) {o : BybitOp}
    {x x' : TradeExchange} {v : o.Val} (h : m.answerBybit o x = some (v, x')) :
    x.Answers o (.ok v) x' := by
  rcases o with _ | _ | _ | _ | _ | _ | _ | _ | _ | _ | _ | _ | _ | _ | _ <;> cases h
  · exact ⟨fun rows hrows row hrow => by
      obtain rfl := Except.ok.inj hrows
      rwa [List.mem_singleton.1 hrow], rfl⟩
  · rfl
  · rfl
  · exact ⟨fun rows hrows hne => absurd (Except.ok.inj hrows).symm hne, rfl⟩
  · exact ⟨fun rows hrows hne => mem_filled.1 (Except.ok.inj hrows ▸ hne),
      fun rows hrows _ hacc => Except.ok.inj hrows ▸ mem_filled.2 hacc, rfl⟩
  · exact ⟨fun rows hrows hne => absurd (Except.ok.inj hrows).symm hne, rfl⟩
  · exact .inl rfl
  · rfl

/-- The next step of the cycle. -/
def move (m : Market) : Move Unit Memory TradeRemote JsError Op.Val := .run () m.answer

theorem move_fair {key : String} {turn : Proc Unit} (m : Market)
    (hs : TradeManager.Stepped m.instrument) : m.move.Fair (repeating key turn) := by
  intro o w a r ha
  rcases o with o | o | _ | _ | _
  · obtain ⟨rfl, rfl⟩ := Prod.mk.inj (Option.some.inj ha)
    exact ⟨.done fun _ => false, rfl, rfl⟩
  · obtain ⟨⟨v, x⟩, hv, hx⟩ := Option.map_eq_some_iff.1 ha
    obtain ⟨rfl, rfl⟩ := Prod.mk.inj hx
    exact ⟨m.answerBybit_truth hs hv, rfl⟩
  · obtain ⟨rfl, rfl⟩ := Prod.mk.inj (Option.some.inj ha)
    exact ⟨⟨false, rfl⟩, rfl⟩
  · obtain ⟨rfl, rfl⟩ := Prod.mk.inj (Option.some.inj ha)
    exact ⟨⟨1, rfl⟩, rfl⟩
  · obtain ⟨-, rfl⟩ := Prod.mk.inj (Option.some.inj ha)
    rfl

end Market

/-- A trade entered at 100 with its stop at 90. -/
def longTrade : Command where
  candidateKey := "BTCUSDT-1"
  slotId := some 1
  state := .managing
  payload := .obj [
    ("symbol", .str "BTCUSDT"),
    ("side", .str "Buy"),
    ("technicalStopLoss", .num 90)]
  ownerId := some "node:slot1"
  createdAt := 0
  updatedAt := 0
  source := .direct

/-- The exchange shows a size and a mark price of this trade, for a step of the quantities. -/
def longMarket (size mark step : String) : Market where
  position := {
    symbol := some (.str "BTCUSDT")
    side := some (.str "Buy")
    size := some (.str size)
    avgPrice := some (.str "100")
    stopLoss := none
    takeProfit := none
    positionIdx := some (.num 0) }
  mark := mark
  instrument := {
    status := some (.str "Trading")
    tickSize := some (.str "0.1")
    qtyStep := some (.str step)
    minOrderQty := some (.str "1")
    maxMktOrderQty := none
    maxMarketOrderQty := none
    maxOrderQty := none
    minNotionalValue := none
    maxLeverage := none }

theorem longMarket_stepped (size mark : String) {step : String} {q : ℚ}
    (hq : Json.parseNumber step = some q) (h : 0 ≤ q) :
    TradeManager.Stepped (longMarket size mark step).instrument := by
  intro r hr
  change Json.parseNumber (Json.toText (Json.orElse (some (.str step)) (some (.str "0")))) =
    some r at hr
  by_cases hs : step = ""
  · subst hs
    obtain rfl : (0 : ℚ) = r := Option.some.inj ((by decide +kernel : some (0 : ℚ) = _).trans hr)
    exact le_rfl
  · rw [Json.orElse, Json.truthy, decide_eq_true hs, if_pos rfl, Json.toText_str, hq] at hr
    exact Option.some.inj hr ▸ h

/-- A service without database, before the management of a trade. -/
def untouched : TradeWorld := ⟨.started false false 0, ⟨∅, .blank⟩⟩

theorem untouched_starts : TradeStarts longTrade untouched := ⟨rfl, rfl, rfl⟩

end IntradayBot.Node
