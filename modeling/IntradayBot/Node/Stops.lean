import IntradayBot.Node.Trade

/-!
# The stops of a trade

The stop of a trade is set at the entry when the first part is closed, and then follows
the price. It tightens as long as every cycle starts from a record that tells of the last
stop requested (`Told`): the record is only saved at the end of a cycle, and a cycle cut
between a stop and the saving is forgotten.

The invariant (`Tightened`) is about the stops and the plan; what a cycle knows beside it
is where its own record stands among the stops (`Stage`).
-/

namespace IntradayBot.Node

open Coop TradeManager

/-- The stop `p` protects a position of the side no less than `q`. -/
def NotLooser (side : Side) (p q : ℚ) : Prop :=
  match side with
  | .buy => q ≤ p
  | .sell => p ≤ q

instance (side : Side) (p q : ℚ) : Decidable (NotLooser side p q) :=
  match side with
  | .buy => inferInstanceAs (Decidable (q ≤ p))
  | .sell => inferInstanceAs (Decidable (p ≤ q))

theorem NotLooser.refl (side : Side) (p : ℚ) : NotLooser side p p := by
  rcases side with _ | _ <;> exact le_rfl

theorem NotLooser.trans {side : Side} {p q r : ℚ} (h₁ : NotLooser side p q)
    (h₂ : NotLooser side q r) : NotLooser side p r := by
  rcases side with _ | _
  · exact le_trans h₂ h₁
  · exact le_trans h₁ h₂

namespace TradeManager

/-- A trailing stop is no looser than the one before, or, if it is the first, than half an
    R from the price. -/
theorem trailingStop_tightens {mark riskDistance t : ℚ} {side : Side} {stop : Option ℚ}
    (h : trailingStop mark side riskDistance stop = some t) (hm : 0 < mark)
    (hstop : ∀ v, stop = some v → 0 < v) :
    0 < t ∧ (∀ v, stop = some v → NotLooser side t v) ∧
      (stop = none → NotLooser side t (mark - side.direction * riskDistance * trailingDistanceR)) := by
  have hprevious : 0 ≤ stop.getD 0 := by
    rcases stop with _ | v
    · exact le_rfl
    · exact (hstop v rfl).le
  rcases side with _ | _ <;> simp only [trailingStop, Option.ite_none_right_eq_some] at h <;>
    obtain ⟨hc, h⟩ := h <;> obtain rfl := Option.some.inj h
  · refine ⟨?_, ?_, ?_⟩
    · -- it differs from the previous one, which is not negative
      have hle := le_max_left (stop.getD 0) (mark - Side.buy.direction * riskDistance *
        trailingDistanceR)
      have hfar := (le_max_right _ _).trans_lt hc.2
      rw [abs_of_nonneg (sub_nonneg.2 hle)] at hfar
      have : (0 : ℚ) < 1 / 10 ^ 8 := by norm_num
      linarith
    · rintro v rfl
      exact le_max_left _ _
    · rintro -
      exact le_max_right _ _
  · refine ⟨hm.trans (of_decide_eq_true hc.1), ?_, ?_⟩
    · rintro v rfl
      rw [Option.getD_some, if_pos (hstop v rfl)]
      exact min_le_left _ _
    · rintro rfl
      rw [Option.getD_none, if_neg (lt_irrefl _)]
      exact le_rfl

/-- The second level is beyond the stop at the entry, by more than the trailing distance. -/
theorem Fits.entry_of_reached {side : Side} {plan : ManagementPlan} (h : Fits side plan) {mark : ℚ}
    (hm : reached mark plan.tp2Price side) :
    NotLooser side (mark - side.direction * plan.riskDistance * trailingDistanceR)
      plan.averageEntry := by
  have hr := h.riskDistance
  rw [h.tp2Price, target] at hm
  rcases side with _ | _ <;>
    simp only [reached, NotLooser, Side.direction, tp2R, trailingDistanceR] at hm ⊢ <;> linarith

end TradeManager

/-! ## The invariant -/

/-- The request moves the stop to the entry, and sets the target: the others only trail. -/
abbrev StopRequest.IsBreakEven (r : StopRequest) : Prop := r.takeProfit ≠ none

/-- The stop `r` is no looser than `q`. -/
def StopRequest.Tighter (side : Side) (r q : StopRequest) : Prop :=
  ∃ p v, r.stopLoss = some p ∧ q.stopLoss = some v ∧ NotLooser side p v

/-- The stops requested for a trade, the last one first. -/
structure Tightened (side : Side) (s : Seen TradeExchange) : Prop where
  noPlan : s.record.bind ManagementState.plan = none → s.exchange.stops = []
  fits : ∀ plan, s.record.bind ManagementState.plan = some plan → Fits side plan
  priced : ∀ r ∈ s.exchange.stops, ∃ p, r.stopLoss = some p
  breakEven : ∀ plan, s.record.bind ManagementState.plan = some plan →
    ∀ r ∈ s.exchange.stops, r.IsBreakEven → r.stopLoss = some plan.averageEntry
  order : s.exchange.stops.Pairwise fun r q => r.IsBreakEven → q.IsBreakEven
  tightens : s.exchange.stops.Pairwise (StopRequest.Tighter side)
  tp2Done : ∀ state, s.record = some state → state.tp2Done = true → state.tp1Done = true
  trailing : ∀ state v, s.record = some state → state.trailingStop = some v →
    state.tp2Done = true ∧ 0 < v

/-- Where the record of a cycle stands among the stops. -/
inductive Stage (side : Side) (mark : ℚ) (state : ManagementState) : List StopRequest → Prop
  | before {stops : List StopRequest} (h₂ : state.tp2Done = false) (ht : state.trailingStop = none)
    (h : ∀ r ∈ stops, r.IsBreakEven) : Stage side mark state stops
  /-- The second part was just closed. -/
  | reached {stops : List StopRequest} (h₁ : state.tp1Done = true) (h₂ : state.tp2Done = true)
    (ht : state.trailingStop = none) (h : ∀ r ∈ stops, r.IsBreakEven)
    (hm : ∀ plan, state.plan = some plan → reached mark plan.tp2Price side) :
    Stage side mark state stops
  | trailing {stops : List StopRequest} {r : StopRequest} {v : ℚ} (h₁ : state.tp1Done = true)
    (h₂ : state.tp2Done = true) (ht : state.trailingStop = some v) (hv : 0 < v)
    (h : stops.head? = some r) (hp : r.stopLoss = some v) : Stage side mark state stops

theorem Stage.tp1Done {side : Side} {mark : ℚ} {state : ManagementState}
    {stops : List StopRequest} (h : Stage side mark state stops) (hd : state.tp2Done = true) :
    state.tp1Done = true := by
  rcases h with ⟨h₂, _, _⟩ | ⟨h₁, _, _, _, _⟩ | ⟨h₁, _, _, _, _, _⟩
  · exact absurd (h₂.symm.trans hd) nofun
  · exact h₁
  · exact h₁

theorem Stage.trailingStop {side : Side} {mark : ℚ} {state : ManagementState}
    {stops : List StopRequest} {v : ℚ} (h : Stage side mark state stops)
    (hd : state.trailingStop = some v) : state.tp2Done = true ∧ 0 < v := by
  rcases h with ⟨_, ht, _⟩ | ⟨_, _, ht, _, _⟩ | ⟨_, h₂, ht, hv, _, _⟩
  · exact absurd (ht.symm.trans hd) nofun
  · exact absurd (ht.symm.trans hd) nofun
  · exact ⟨h₂, Option.some.inj (ht.symm.trans hd) ▸ hv⟩

/-- Only what was done of the record matters. -/
theorem Stage.congr {side : Side} {mark : ℚ} {state state' : ManagementState}
    {stops : List StopRequest} (h : Stage side mark state stops)
    (h₁ : state'.tp1Done = state.tp1Done) (h₂ : state'.tp2Done = state.tp2Done)
    (ht : state'.trailingStop = state.trailingStop) (hp : state'.plan = state.plan) :
    Stage side mark state' stops := by
  rcases h with ⟨hd₂, hn, hall⟩ | ⟨hd₁, hd₂, hn, hall, hm⟩ | ⟨hd₁, hd₂, hv, hpos, hr, hrp⟩
  · exact .before (h₂.trans hd₂) (ht.trans hn) hall
  · exact .reached (h₁.trans hd₁) (h₂.trans hd₂) (ht.trans hn) hall fun plan hplan =>
      hm plan (hp.symm.trans hplan)
  · exact .trailing (h₁.trans hd₁) (h₂.trans hd₂) (ht.trans hv) hpos hr hrp

namespace Tightened

variable {side : Side} {s : Seen TradeExchange} {x : TradeExchange} {state : ManagementState}
  {plan : ManagementPlan} {mark : ℚ}

/-- Only the stops matter. -/
theorem of_stops (h : Tightened side s) (hx : x.stops = s.exchange.stops) :
    Tightened side ⟨s.record, x⟩ where
  noPlan hp := hx.trans (h.noPlan hp)
  fits := h.fits
  priced := hx ▸ h.priced
  breakEven := hx ▸ h.breakEven
  order := hx ▸ h.order
  tightens := hx ▸ h.tightens
  tp2Done := h.tp2Done
  trailing := h.trailing

/-- The record is replaced by one of the same plan. -/
theorem put (h : Tightened side s) (hp : s.record.bind ManagementState.plan = state.plan)
    (hstage : Stage side mark state s.exchange.stops) :
    Tightened side ⟨some state, s.exchange⟩ where
  noPlan hn := h.noPlan (hp.trans hn)
  fits plan hs := h.fits plan (hp.trans hs)
  priced := h.priced
  breakEven plan hs := h.breakEven plan (hp.trans hs)
  order := h.order
  tightens := h.tightens
  tp2Done state' hs hd := by
    obtain rfl := Option.some.inj hs
    exact hstage.tp1Done hd
  trailing state' v hs hv := by
    obtain rfl := Option.some.inj hs
    exact hstage.trailingStop hv

/-- The first record, when no stop was requested. -/
theorem start (hx : s.exchange.stops = []) (hp : state.plan = some plan) (hf : Fits side plan)
    (hd : state.tp2Done = false) (ht : state.trailingStop = none) :
    Tightened side ⟨some state, s.exchange⟩ where
  noPlan hn := absurd (hp.symm.trans hn) nofun
  fits plan' hs := Option.some.inj (hp.symm.trans hs) ▸ hf
  priced := hx ▸ fun _ hr => absurd hr List.not_mem_nil
  breakEven _ _ := hx ▸ fun _ hr => absurd hr List.not_mem_nil
  order := hx ▸ .nil
  tightens := hx ▸ .nil
  tp2Done state' hs hd' := by
    obtain rfl := Option.some.inj hs
    exact absurd (hd.symm.trans hd') nofun
  trailing state' v hs hv := by
    obtain rfl := Option.some.inj hs
    exact absurd (ht.symm.trans hv) nofun

/-- Another stop is requested, no looser than those before. -/
theorem push (h : Tightened side s) (hplan : s.record.bind ManagementState.plan = some plan)
    {r : StopRequest} {p : ℚ} (hp : r.stopLoss = some p)
    (hle : ∀ q ∈ s.exchange.stops, ∃ v, q.stopLoss = some v ∧ NotLooser side p v)
    (hbe : r.IsBreakEven → p = plan.averageEntry ∧ ∀ q ∈ s.exchange.stops, q.IsBreakEven) :
    Tightened side ⟨s.record, { s.exchange with stops := r :: s.exchange.stops }⟩ where
  noPlan hn := absurd (hplan.symm.trans hn) nofun
  fits := h.fits
  priced := List.forall_mem_cons.2 ⟨⟨p, hp⟩, h.priced⟩
  breakEven plan' hs := by
    obtain rfl := Option.some.inj (hplan.symm.trans hs)
    exact List.forall_mem_cons.2 ⟨fun hr => (hbe hr).1 ▸ hp, h.breakEven plan hplan⟩
  order := List.pairwise_cons.2 ⟨fun q hq hr => (hbe hr).2 q hq, h.order⟩
  tightens := List.pairwise_cons.2 ⟨fun q hq => by
    obtain ⟨v, hv, hle⟩ := hle q hq
    exact ⟨p, v, hp, hv, hle⟩, h.tightens⟩
  tp2Done := h.tp2Done
  trailing := h.trailing

/-- The stop goes to the entry, when none has trailed. -/
theorem push_breakEven (h : Tightened side s)
    (hplan : s.record.bind ManagementState.plan = some plan)
    (hall : ∀ q ∈ s.exchange.stops, q.IsBreakEven) {r : StopRequest}
    (hp : r.stopLoss = some plan.averageEntry) :
    Tightened side ⟨s.record, { s.exchange with stops := r :: s.exchange.stops }⟩ :=
  h.push hplan hp (fun q hq => ⟨_, h.breakEven plan hplan q hq (hall q hq), .refl _ _⟩)
    fun _ => ⟨rfl, hall⟩

/-- The stop trails. -/
theorem push_trailing (h : Tightened side s)
    (hplan : s.record.bind ManagementState.plan = some plan) (hstate : state.plan = some plan)
    (hstage : Stage side mark state s.exchange.stops) (h₂ : state.tp2Done = true) {t : ℚ}
    (ht : trailingStop mark side plan.riskDistance state.trailingStop = some t) (hm : 0 < mark)
    {r : StopRequest} (hr : ¬r.IsBreakEven) (hp : r.stopLoss = some t) :
    0 < t ∧ Tightened side ⟨s.record, { s.exchange with stops := r :: s.exchange.stops }⟩ := by
  obtain ⟨hpos, hratchet, hfirst⟩ :=
    trailingStop_tightens ht hm fun v hv => (hstage.trailingStop hv).2
  refine ⟨hpos, h.push hplan hp (fun q hq => ?_) fun hbe => absurd hbe hr⟩
  rcases hstage with ⟨hf, _, _⟩ | ⟨_, _, hnone, hall, hreached⟩ | ⟨_, _, hv, _, hhead, hqp⟩
  · exact absurd (hf.symm.trans h₂) nofun
  · -- the first one: all before are at the entry
    exact ⟨_, h.breakEven plan hplan q hq (hall q hq),
      (hfirst hnone).trans ((h.fits plan hplan).entry_of_reached (hreached plan hstate))⟩
  · -- the next one: it is no looser than the last one, and that than the others
    have htight := h.tightens
    rcases hs : s.exchange.stops with _ | ⟨r', l⟩
    · rw [hs] at hq
      exact absurd hq List.not_mem_nil
    rw [hs] at hq hhead htight
    obtain rfl := Option.some.inj hhead
    rcases List.mem_cons.1 hq with rfl | hq
    · exact ⟨_, hqp, hratchet _ hv⟩
    · obtain ⟨p, v, hp, hqv, hle⟩ := (List.pairwise_cons.1 htight).1 q hq
      obtain rfl := Option.some.inj (hqp.symm.trans hp)
      exact ⟨v, hqv, (hratchet _ hv).trans hle⟩

end Tightened

/-- The record tells of the last stop requested. -/
structure UpToDate (s : Seen (List StopRequest)) : Prop where
  trailing : ∀ r l, s.exchange = r :: l → ¬r.IsBreakEven →
    ∃ state, s.record = some state ∧ state.trailingStop = r.stopLoss
  breakEven : (∀ r ∈ s.exchange, r.IsBreakEven) →
    ∀ state, s.record = some state → state.tp2Done = false

/-- Where a record that is up to date stands. -/
theorem Tightened.stage {side : Side} {s : Seen TradeExchange} (h : Tightened side s)
    (hu : UpToDate (s.look TradeExchange.stops)) {state : ManagementState}
    (hrec : s.record = some state) (mark : ℚ) : Stage side mark state s.exchange.stops := by
  have before : (∀ r ∈ s.exchange.stops, r.IsBreakEven) →
      Stage side mark state s.exchange.stops := by
    intro hall
    have h₂ := hu.breakEven hall state hrec
    refine .before h₂ (Option.eq_none_iff_forall_ne_some.2 fun v hv => ?_) hall
    exact absurd (h₂.symm.trans (h.trailing state v hrec hv).1) nofun
  rcases hs : s.exchange.stops with _ | ⟨r, l⟩
  · exact hs ▸ before (hs ▸ fun _ hr => absurd hr List.not_mem_nil)
  · rw [← hs]
    by_cases hr : r.IsBreakEven
    · have horder := h.order
      rw [hs] at horder
      exact before (hs ▸ List.forall_mem_cons.2
        ⟨hr, fun q hq => (List.pairwise_cons.1 horder).1 q hq hr⟩)
    · obtain ⟨state', hrec', hstop⟩ := hu.trailing r l hs hr
      obtain rfl := Option.some.inj (hrec.symm.trans hrec')
      obtain ⟨v, hv⟩ := h.priced r (hs ▸ List.mem_cons_self)
      obtain ⟨h₂, hpos⟩ := h.trailing state v hrec (hstop.trans hv)
      exact .trailing (h.tp2Done state hrec h₂) h₂ (hstop.trans hv) hpos (hs ▸ rfl) hv

/-! ## The cycle -/

/-- A request that neither moves a stop nor changes a record. -/
def Stopless : Op → Prop
  | .db o => o.Unmanaging
  | .bybit (.setTradingStop _) => False
  | _ => True

theorem Lookup.stopless {o : Op} (h : Lookup o) : Stopless o := by
  rcases o with o | o | _ | _ | _
  · exact h
  · rcases o <;> trivial
  all_goals trivial

section cycle

variable {command : Command} {side : Side} {plan : ManagementPlan} {position : PositionRow}
  {instrument : InstrumentRow} {o : Observation} {state : ManagementState} {mark : ℚ}
  {ok : Condition Unit Memory TradeRemote JsError Op.Val} {symbol key : String}

theorem stopless_kept {o : Op} (ho : Stopless o) {w : TradeWorld} {a : Except JsError o.Val}
    {r : TradeRemote} (ha : tradeRespond o w a r) :
    (∀ key, rowOf key ⟨w.mem, r⟩ = rowOf key w) ∧
      r.exchange.stops = w.remote.exchange.stops := by
  rcases o with o | o | _ | _ | _
  · exact unseen_aside (.db o) w a r ho ha
  · obtain ⟨ha, ht⟩ := ha
    refine ⟨fun key => by rw [rowOf, rowOf, ht], ?_⟩
    rcases o with _ | _ | _ | _ | _ | _ | _ | _ | _ | _ | _ | _ | _ | _ | _
    case setTradingStop => exact ho.elim
    case createOrder =>
      rcases ha with hx | ⟨-, hx⟩
      · rw [hx]
        rfl
      · rw [hx]
    case instrument => rw [ha.2]
    case realtimeOrder => rw [ha.2]
    case orderHistory => rw [ha.2.2]
    case executions => rw [ha.2]
    all_goals rw [ha]
  all_goals exact unseen_aside _ w a r trivial ha

/-- Such requests change nothing of the stops. -/
theorem stopless_does {α : Type} {p : Proc α} {P : Seen (List StopRequest) → Prop}
    (h : p.All (Unmanaged key) Stopless) :
    Does key (Tightened side) TradeExchange.stops ok P p fun _ => P :=
  .unseen (fun _ _ _ _ ho ha => stopless_kept ho ha)
    (fun _ _ _ _ ho ha _ hI => hI.of_stops (stopless_kept ho ha).2) h

theorem Looks.stopless {α : Type} {p : Proc α} (h : Looks key p) :
    p.All (Unmanaged key) Stopless :=
  h.mono (fun _ hf => hf) fun _ ho => ho.stopless

theorem closeFraction_stopless {action : Action} {closePct : ℚ} :
    (closeFraction command plan side position instrument action closePct).All (Unmanaged key)
      Stopless := by
  have settle : ∀ quantity, (closeFraction.settle command action
      (Json.toText (command.payload.get "symbol")) (.management command.candidateKey action)
      quantity).All (Unmanaged key) Stopless := fun quantity =>
    .bind (waitForResolution_looks _ _ _).stopless fun _ =>
      .bind (Looks.of_leaves (recordFills_leaves _ _)).stopless fun _ =>
        .bind (.require _ _) fun _ =>
          .bind (Looks.of_leaves (recordOrder_leaves _ _)).stopless fun _ => .ret _
  refine .bind (.ofExcept _) fun quantity => .bind (findOrder_looks _ _).stopless fun prior =>
    .bind (.request trivial) fun executions => ?_
  split
  · exact .bind (Looks.of_leaves (recordOrder_leaves _ _)).stopless fun _ =>
      .bind (.request trivial) fun _ => settle _
  · exact settle _

/-- What a cycle carries along is of the plan of the record, and stands among the stops. -/
structure Standing (side : Side) (mark : ℚ) (state : ManagementState)
    (s : Seen (List StopRequest)) : Prop where
  plan : s.record.bind ManagementState.plan = state.plan
  stage : Stage side mark state s.exchange

/-- The record that a cycle starts from is up to date. -/
theorem loadState_stops (mark : ℚ) (hqty : 0 < o.currentQty) (hentry : 0 < o.entry)
    (hrisk : 0 < o.risk) :
    Does command.candidateKey (Tightened side) TradeExchange.stops ok UpToDate
      (loadState command o symbol side) fun state s => Standing side mark state s := by
  refine .bind .getManagementState fun known => ?_
  rcases known with _ | state
  · refine .bind (Q := fun _ s => Standing side mark (o.initial symbol side) s)
      (.putManagementState fun s hI h => ?_) fun _ =>
        .bind (.leaves (recordOrder_leaves _ _)) fun _ => .ret fun _ _ h => h
    have hnone : s.record = none := h.1
    have hnil : s.exchange.stops = [] := hI.noPlan (by rw [hnone]; rfl)
    exact ⟨.start hnil rfl (plan_fits hqty hentry hrisk symbol side) rfl rfl, rfl,
      .before rfl rfl (hnil ▸ fun _ hr => absurd hr List.not_mem_nil)⟩
  · refine .ret fun s hI h => ⟨?_, hI.stage h.2 h.1 mark⟩
    have hsome : s.record = some state := h.1
    change s.record.bind ManagementState.plan = state.plan
    rw [hsome]
    rfl

/-- At the first level, the stop goes to the entry. -/
theorem takeFirst_stops :
    Does command.candidateKey (Tightened side) TradeExchange.stops ok
      (Standing side o.mark state) (takeFirst command side position o state)
      fun state' s => Standing side o.mark state' s ∧ ∀ plan, state'.plan = some plan →
        reached o.mark plan.tp1Price side → state'.tp1Done = true := by
  rw [takeFirst]
  rcases hp : state.plan with _ | plan
  · exact .ret fun s _ h => ⟨h, fun plan hplan => absurd (hp.symm.trans hplan) nofun⟩
  dsimp only
  split
  · rename_i hc
    refine .bind (stopless_does closeFraction_stopless) fun closedQty => ?_
    -- The first stage is not done, so every stop sent so far was one to break even.
    have fresh : ∀ {stops : List StopRequest}, Stage side o.mark state stops →
        state.tp2Done = false ∧ state.trailingStop = none ∧ ∀ r ∈ stops, r.IsBreakEven := by
      intro stops hstage
      rcases hstage with ⟨h₂, ht, h⟩ | ⟨h₁, _, _, _, _⟩ | ⟨h₁, _, _, _, _, _⟩
      · exact ⟨h₂, ht, h⟩
      · exact absurd h₁ (by simpa using hc.1)
      · exact absurd h₁ (by simpa using hc.1)
    refine .bind (Q := fun _ s => s.record.bind ManagementState.plan = some plan ∧
      state.tp2Done = false ∧ state.trailingStop = none ∧ ∀ r ∈ s.exchange, r.IsBreakEven)
      (.bind (.bybit fun w a x hI h hx _ => ?_) fun _ => .leaves (recordOrder_leaves _ _))
      fun _ => .ret fun s _ h => ?_
    · obtain ⟨h₂, ht, hall⟩ := fresh h.stage
      have hplan := h.plan.trans hp
      subst hx
      exact ⟨hI.push_breakEven hplan hall rfl, fun _ _ =>
        ⟨hplan, h₂, ht, List.forall_mem_cons.2 ⟨nofun, hall⟩⟩⟩
    · exact ⟨⟨h.1, .before h.2.1 h.2.2.1 h.2.2.2⟩, fun _ _ _ => rfl⟩
  · rename_i hc
    refine .ret fun s _ h => ⟨h, fun plan' hplan hr => ?_⟩
    obtain rfl := Option.some.inj (hp.symm.trans hplan)
    by_contra hd
    exact hc ⟨by simpa using hd, hr⟩

/-- At the second level, no stop is moved. -/
theorem takeSecond_stops :
    Does command.candidateKey (Tightened side) TradeExchange.stops ok
      (fun s => Standing side o.mark state s ∧ ∀ plan, state.plan = some plan →
        reached o.mark plan.tp1Price side → state.tp1Done = true)
      (takeSecond command side position o state) fun state' s => Standing side o.mark state' s := by
  rw [takeSecond]
  rcases hp : state.plan with _ | plan
  · exact .ret fun s _ h => h.1
  dsimp only
  split
  · rename_i hc
    refine .bind (stopless_does closeFraction_stopless) fun closedQty =>
      .ret fun s hI h => ?_
    have hplan := h.1.plan.trans hp
    have h₁ := h.2 plan rfl ((hI.fits plan hplan).reached_tp1 hc.2)
    refine ⟨hplan, ?_⟩
    rcases h.1.stage with ⟨_, ht, hall⟩ | ⟨_, h₂, _, _, _⟩ | ⟨_, h₂, _, _, _, _⟩
    · refine .reached h₁ rfl ht hall fun plan' hplan' => ?_
      obtain rfl := Option.some.inj hplan'
      exact hc.2
    · exact absurd h₂ (by simpa using hc.1)
    · exact absurd h₂ (by simpa using hc.1)
  · exact .ret fun s _ h => h.1

/-- The stop of the rest only tightens. -/
theorem trail_stops (hm : 0 < mark) :
    Does command.candidateKey (Tightened side) TradeExchange.stops ok
      (Standing side mark state) (trail command symbol side position mark state)
      fun state' s => Standing side mark state' s := by
  rw [trail]
  rcases hp : state.plan with _ | plan
  · exact .ret fun _ _ h => h
  dsimp only
  split
  · rename_i h₂
    rcases ht : trailingStop mark side plan.riskDistance state.trailingStop with _ | tighter
    · exact .ret fun _ _ h => h
    refine .bind (Q := fun _ s => s.record.bind ManagementState.plan = some plan ∧
      state.tp1Done = true ∧ 0 < tighter ∧ s.exchange.head? =
        some (trailingRequest symbol position tighter)) (.bybit fun w a x hI h hx _ => ?_)
      fun _ => .bind (.leaves (recordOrder_leaves _ _)) fun _ => .ret fun s _ h =>
        ⟨h.1, .trailing h.2.1 h₂ rfl h.2.2.1 h.2.2.2 rfl⟩
    have hplan := h.plan.trans hp
    subst hx
    obtain ⟨hpos, hI'⟩ := hI.push_trailing hplan hp h.stage h₂ ht hm
      (r := trailingRequest symbol position tighter) (fun hr => hr rfl) rfl
    exact ⟨hI', fun _ _ => ⟨hplan, h.stage.tp1Done h₂, hpos, rfl⟩⟩
  · exact .ret fun _ _ h => h

/-- The record that is carried along is saved, with other remarks. -/
theorem put_stops (state' : ManagementState) (hp : state'.plan = state.plan)
    (h₁ : state'.tp1Done = state.tp1Done) (h₂ : state'.tp2Done = state.tp2Done)
    (ht : state'.trailingStop = state.trailingStop) :
    Does command.candidateKey (Tightened side) TradeExchange.stops ok (Standing side mark state)
      (HybridRepository.putManagementState command.candidateKey state') fun _ _ => True :=
  .putManagementState fun _ hI h =>
    ⟨hI.put (h.plan.trans hp.symm) (h.stage.congr h₁ h₂ ht hp), trivial⟩

theorem closedAfter_stops {reason : String} :
    Does command.candidateKey (Tightened side) TradeExchange.stops ok (Standing side mark state)
      (closedAfter command state reason) fun _ _ => True :=
  .bind (put_stops { state with closeReason := some reason } rfl rfl rfl rfl) fun _ =>
    .leaves (finishClosed_leaves _)

theorem currentPosition_stopless : (currentPosition symbol side).All (Unmanaged key) Stopless :=
  .bind (.request trivial) fun _ => .ret _

/-- A cycle, from an open position on. -/
theorem manage_stops (hqty : 0 < o.currentQty) (hentry : 0 < o.entry) (hrisk : 0 < o.risk)
    (hm : 0 < o.mark) :
    Does command.candidateKey (Tightened side) TradeExchange.stops ok UpToDate
      (manage command symbol side position o) fun _ _ => True := by
  refine .bind (loadState_stops o.mark hqty hentry hrisk) fun state => ?_
  refine .bind (takeFirst_stops.pre fun s _ h => ⟨h.plan, h.stage.congr rfl rfl rfl rfl⟩)
    fun state => ?_
  refine .bind (stopless_does currentPosition_stopless) fun refreshedAfterTp1 => ?_
  rcases refreshedAfterTp1 with _ | refreshedAfterTp1
  · exact closedAfter_stops.pre fun _ _ h => h.1
  refine .bind takeSecond_stops fun state => ?_
  refine .bind (stopless_does currentPosition_stopless) fun refreshed => ?_
  rcases refreshed with _ | refreshed
  · exact closedAfter_stops
  refine .bind (trail_stops hm) fun state => ?_
  refine .bind (put_stops _ rfl rfl rfl rfl) fun _ =>
    .bind (.leaves (recordOrder_leaves _ _)) fun _ => ?_
  split
  · exact .leaves (transition_leaves _ _)
  · exact .ret fun _ _ _ => trivial

theorem closeMissingPosition_stops {reason : String} :
    Does command.candidateKey (Tightened side) TradeExchange.stops ok UpToDate
      (closeMissingPosition command reason) fun _ _ => True := by
  refine .bind .getManagementState fun known => .bind (Q := fun _ _ => True)
    (.putManagementState fun s hI h => ⟨?_, trivial⟩) fun _ => .leaves (finishClosed_leaves _)
  have hrec : s.record = known := h.1
  rcases known with _ | state
  · have hnil : s.exchange.stops = [] := hI.noPlan (by rw [hrec]; rfl)
    exact @Tightened.put _ _ _ 0 hI (by rw [hrec]; rfl)
      (.before rfl rfl (hnil ▸ fun _ hr => absurd hr List.not_mem_nil))
  · exact hI.put (by rw [hrec]; rfl) ((hI.stage h.2 hrec 0).congr rfl rfl rfl rfl)

/-- A cycle only tightens the stops, from a record that is up to date. -/
theorem cycle_stops (hside : command.tradeSide = side) :
    Does command.candidateKey (Tightened side) TradeExchange.stops ok UpToDate
      (TradeManager.cycle command) fun _ _ => True := by
  refine .bind (Q := fun _ => UpToDate) (.require fun _ _ _ h => h) fun _ => ?_
  dsimp only
  rcases hs : Side.ofText? (Json.textOrEmpty (command.payload.get "side")) with _ | side'
  · exact .throw _
  obtain rfl : side = side' := by rw [← hside, Command.tradeSide, hs, Option.getD_some]
  refine .bind (Q := fun _ => UpToDate) (.require fun _ _ _ h => h) fun _ => ?_
  refine .bind (stopless_does (.par trivial (.request trivial)
    (.par trivial (.request trivial) (.request trivial)))) fun (positions, tickers, instruments) => ?_
  dsimp only
  rcases positions.find? (isManaged side) with _ | position
  · exact closeMissingPosition_stops
  refine .bind (Q := fun o s => UpToDate s ∧
      observe command.payload position tickers instruments = .ok o)
    (.ofExcept fun o ho s _ h => ⟨h, ho⟩) fun o => .of_forall (fun s _ h => h.2) fun ho => ?_
  obtain ⟨ticker, tickers', instruments', -, rfl, -, hm, -, hqty, -, hentry, -, -, hrisk⟩ :=
    observe_eq_ok ho
  exact (manage_stops hqty hentry hrisk hm).pre fun _ _ h => h.1

end cycle

end IntradayBot.Node
