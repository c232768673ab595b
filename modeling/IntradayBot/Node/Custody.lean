import IntradayBot.Coop.Grant
import IntradayBot.Node.Drift
import IntradayBot.Node.Loops

/-!
# The custody of open positions

The exchange matches a market order when it accepts it: from then on, the position of a candidate
is open (`Exposure.held`), or nothing is left of it (`Exposure.ended`). A position may be closed at
any time, by its stop, its target or by hand. What is read of the exchange is true, and what it
refuses did not happen; a request without an answer may have happened or not (`broker`).

Every open position is to belong to a candidate that one of the slots works on, past its
reservation (`Covered`): no slot gives its candidate up while there is a position of it, and none
is opened for a candidate that was given up. Here are the contract that says so (`custody`), and
what the repository does under it.

The payloads that arrive for a key are for one symbol and one side (`Orderly`), as the key is made
of them, and the stores are disjoint.
-/

namespace IntradayBot.Node

open Coop HybridRepository

namespace Custody

/-! ## The exchange -/

/-- What there is of a candidate on the exchange. -/
inductive Exposure
  /-- No entry order was accepted. -/
  | unsent
  /-- The position that the entry order opened. -/
  | held (symbol side : String)
  | ended
  deriving DecidableEq

namespace Exposure

/-- Nothing is open. -/
def Flat (s : Exposure) : Prop := ∀ symbol side, s ≠ held symbol side

/-- What may happen to it without an order: a position is closed. -/
def Fades (s s' : Exposure) : Prop := s' = s ∨ s ≠ unsent ∧ s' = ended

variable {s s' s'' : Exposure}

theorem Fades.refl (s : Exposure) : s.Fades s := .inl rfl

theorem Fades.trans (h : s.Fades s') (h' : s'.Fades s'') : s.Fades s'' := by
  rcases h with rfl | ⟨hs, rfl⟩
  · exact h'
  · rcases h' with rfl | ⟨-, rfl⟩ <;> exact .inr ⟨hs, rfl⟩

/-- What is open was open. -/
theorem Fades.held {symbol side : String} (h : s.Fades s') (hs : s' = .held symbol side) :
    s = .held symbol side := by
  rcases h with rfl | ⟨-, rfl⟩
  · exact hs
  · cases hs

theorem Flat.fades (hs : s.Flat) (h : s.Fades s') : s'.Flat :=
  fun symbol side hs' => hs symbol side (h.held hs')

end Exposure

/-- An order that is shown shows what was filled of it. -/
def ShowsFill (s : Exposure) (row : OrderRow) : Prop :=
  s.Flat ∨ ∃ q, Json.numberOrZero row.cumExecQty = some q ∧ 0 < q

/-- What is shown of the positions and the orders is true. -/
def Truthful (s : String → Exposure) : (o : BybitOp) → o.Val → Prop
  | .position symbol, rows => ∀ k side, s k = .held symbol side →
    ∃ row ∈ rows, row.isOpen = true ∧ Json.toText row.side = side
  | .realtimeOrder _ (.entry k), rows => ∀ row ∈ rows, ShowsFill (s k) row
  | .orderHistory _ (.entry k), rows => ∀ row ∈ rows, ShowsFill (s k) row
  | .executions _ _, rows => (ExecutionRow.totalQty rows).isSome
  | _, _ => True

/-- The entry order of a key is accepted, the first one that is. -/
def Accepts (k : String) (request : OrderRequest) (s s' : String → Exposure) : Prop :=
  (∀ k', k' ≠ k → s' k' = s k') ∧
    (s k = .unsent ∧ (s' k = .held request.symbol request.side ∨ s' k = .ended) ∨
      s k ≠ .unsent ∧ s' k = s k)

/-- What an order does, given its answer: one that is refused does nothing. -/
def Trades (request : OrderRequest) (a : Except JsError Field) (s s' : String → Exposure) : Prop :=
  match request.orderLinkId with
  | .entry k => s' = s ∧ (∀ id, a ≠ .ok id) ∨
    Accepts k request s s' ∧ ∀ code message, a ≠ .error (.api code message)
  | .management _ _ => ∀ k, (s k).Fades (s' k)

/-- The exchange: what there is of each candidate. -/
def broker : ExchangeModel where
  State := String → Exposure
  respond _ o s a s' := (∀ v, a = .ok v → Truthful s o v) ∧
    match o, a with
    | .createOrder request, a => Trades request a s s'
    | _, _ => s' = s
  step s s' := ∀ k, (s k).Fades (s' k)

/-! ## The contract -/

/-- The symbol and the side of a payload. -/
def ident (payload : Json) : String × String :=
  (Json.toText (payload.get "symbol"), Json.toText (payload.get "side"))

/-- What there is of a candidate. -/
abbrev exposure (w : ServiceWorld broker) (k : String) : Exposure := w.remote.exchange k

/-- All payloads of a key are for its symbol and its side. -/
def Named (name : String → String × String) (w : ServiceWorld broker) : Prop :=
  ∀ k c, Copy w k c → ident c.payload = name k

/-- Every open position is that of a candidate that a slot works on. -/
def Covered (name : String → String × String) (w : ServiceWorld broker) : Prop :=
  ∀ k symbol side, exposure w k = .held symbol side → name k = (symbol, side) ∧
    ∃ i d, visible w k = some d ∧ Busy i d ∧ d.state ≠ .reserved

/-- The stores are disjoint, and what arrives for a key is for its symbol and its side. -/
structure Orderly (name : String → String × String) (w : ServiceWorld broker)
    (l : Label Slot JsError Op.Val) (w' : ServiceWorld broker) : Prop where
  disjoint : Disjoint w l w'
  named : l = .env → ∀ k c, Copy w' k c → Copy w k c ∨ ident c.payload = name k

/-- Nothing is added to the invariant of the stores. -/
def orderly (name : String → String × String) (config : Config) :
    Extension broker config (Orderly name) where
  inv _ := True
  Free _ _ := True
  Call _ := True
  disjoint h := h.disjoint
  change _ _ _ _ _ := trivial
  arrival _ _ _ _ _ := trivial
  stable_free _ _ := trivial
  free _ _ _ _ := trivial
  owned _ _ _ _ _ := trivial
  claimed _ _ _ _ := trivial

section

variable (name : String → String × String) (config : Config)

/-- The contract of the stores. -/
abbrev stores : Contract Slot Memory (Remote broker) := contract (orderly name config)

/-- What a slot may rely on: nothing is opened for a candidate that it works on. -/
structure Spares (i : Slot) (w w' : ServiceWorld broker) : Prop where
  rely : Rely i w w'
  fades : ∀ k d, Stamped i d → visible w k = some d → (exposure w k).Fades (exposure w' k)

theorem Spares.trans {i : Slot} {w₁ w₂ w₃ : ServiceWorld broker} (h : Spares i w₁ w₂)
    (h' : Spares i w₂ w₃) : Spares i w₁ w₃ where
  rely := h.rely.trans h'.rely
  fades k d hs hv := (h.fades k d hs hv).trans (h'.fades k d hs (h.rely.visible hs hv))

/-- The contract of the stores and the exchange. -/
def custody : Contract Slot Memory (Remote broker) where
  inv w := (stores name config).inv w ∧ Named name w ∧ Covered name w
  rely := Spares
  step := Forward
  rely_refl i w := ⟨.refl i w, fun _ _ _ _ => .refl _⟩
  rely_trans _ _ _ _ := Spares.trans
  step_refl := Forward.refl

theorem adds (i : Slot) : (stores name config).Adds (custody name config) i :=
  ⟨fun _ h => h.1, fun _ _ h => h.rely⟩

end

variable {name : String → String × String} {config : Config} {i : Slot}
  {w w' : ServiceWorld broker}

/-! ## Steps -/

/-- A step that keeps the stores, opens nothing, and gives up no open position. -/
theorem keeps_of (hw : (custody name config).inv w) (hk : (stores name config).Keeps i w w')
    (hfades : ∀ k, (exposure w k).Fades (exposure w' k)) (hnamed : Named name w')
    (hown : ∀ k d, visible w k = some d → Busy i d → d.state ≠ .reserved →
      ¬(exposure w k).Flat → ∃ d', visible w' k = some d' ∧ Busy i d' ∧ d'.state ≠ .reserved) :
    (custody name config).Keeps i w w' where
  inv := by
    refine ⟨hk.inv, hnamed, fun k symbol side hheld => ?_⟩
    have hheld' := (hfades k).held hheld
    obtain ⟨hname, j, d, hd, hbusy, hstate⟩ := hw.2.2 k symbol side hheld'
    refine ⟨hname, ?_⟩
    by_cases hj : j = i
    · subst hj
      exact ⟨j, hown k d hd hbusy hstate fun hflat => hflat symbol side hheld'⟩
    · -- what another slot works on is spared by this one
      exact ⟨j, d, (hk.rely j hj).visible hbusy.stamped hd, hbusy, hstate⟩
  rely j hj := ⟨hk.rely j hj, fun k _ _ _ => hfades k⟩
  step := hk.step

theorem visible_of_copies (hentry : ∀ k, stored? w' k = stored? w k)
    (hrow : ∀ k, row? w' k = row? w k) (k : String) : visible w' k = visible w k := by
  unfold visible
  rw [show w'.mem.direct.get? k = _ from hentry k, show w'.remote.tables.row? k = _ from hrow k]

theorem Named.of_copies (h : Named name w) (hentry : ∀ k, stored? w' k = stored? w k)
    (hrow : ∀ k, row? w' k = row? w k) : Named name w' := by
  intro k c hc
  refine h k c ?_
  rwa [Copy, ← hentry, ← hrow]

/-- A step that leaves the stores alone. -/
theorem keeps_of_same (hw : (custody name config).inv w) (hk : (stores name config).Keeps i w w')
    (hentry : ∀ k, stored? w' k = stored? w k) (hrow : ∀ k, row? w' k = row? w k)
    (hfades : ∀ k, (exposure w k).Fades (exposure w' k)) : (custody name config).Keeps i w w' :=
  keeps_of hw hk hfades (hw.2.1.of_copies hentry hrow) fun k d hd hbusy hstate _ =>
    ⟨d, (visible_of_copies hentry hrow k).trans hd, hbusy, hstate⟩

/-- A command is put in memory: one that the slot works on, if there is a position. -/
theorem keeps_of_put {m : Memory} {d : Command} (hw : (custody name config).inv w)
    (hk : (stores name config).Keeps i w ⟨m, w.remote⟩) (direct : m.direct = w.mem.direct.put d)
    (hident : ident d.payload = name d.candidateKey)
    (hown : ∀ d₀, visible w d.candidateKey = some d₀ → Busy i d₀ → d₀.state ≠ .reserved →
      ¬(exposure w d.candidateKey).Flat → Busy i d ∧ d.state ≠ .reserved) :
    (custody name config).Keeps i w ⟨m, w.remote⟩ := by
  have hget : ∀ k, stored? (⟨m, w.remote⟩ : ServiceWorld broker) k =
      if k = d.candidateKey then some d else stored? w k := fun k => by
    rw [stored?, direct, CommandMap.get?_put]
  refine keeps_of hw hk (fun _ => .refl _) (fun k c hc => ?_) fun k d₀ hd₀ hbusy hstate hopen => ?_
  · rcases hc with hc | hc
    · rw [hget] at hc
      split_ifs at hc with hkey
      · obtain rfl := Option.some.inj hc
        exact hkey ▸ hident
      · exact hw.2.1 k c (.inl hc)
    · exact hw.2.1 k c (.inr hc)
  · by_cases hkey : k = d.candidateKey
    · subst hkey
      exact ⟨d, visible_of_entry ((hget _).trans (if_pos rfl)), hown d₀ hd₀ hbusy hstate hopen⟩
    · refine ⟨d₀, ?_, hbusy, hstate⟩
      rw [← hd₀, visible, visible, show m.direct.get? k = _ from (hget k).trans (if_neg hkey)]

/-- A row moves: to where the slot works on it, if there is a position. -/
theorem keeps_of_row {r : Remote broker} {d : Command} (hw : (custody name config).inv w)
    (hk : (stores name config).Keeps i w ⟨w.mem, r⟩)
    (rows : ∀ k, r.tables.row? k = if k = d.candidateKey then some d else row? w k)
    (exchange : r.exchange = w.remote.exchange) (hident : ident d.payload = name d.candidateKey)
    (hown : ∀ d₀, row? w d.candidateKey = some d₀ → Busy i d₀ → d₀.state ≠ .reserved →
      ¬(exposure w d.candidateKey).Flat → Busy i d ∧ d.state ≠ .reserved) :
    (custody name config).Keeps i w ⟨w.mem, r⟩ := by
  have hfades : ∀ k, (exposure w k).Fades (exposure ⟨w.mem, r⟩ k) := fun k => by
    rw [exposure, exposure, exchange]
    exact .refl _
  refine keeps_of hw hk hfades (fun k c hc => ?_) fun k d₀ hd₀ hbusy hstate hopen => ?_
  · rcases hc with hc | hc
    · exact hw.2.1 k c (.inl hc)
    · rw [row?, rows] at hc
      split_ifs at hc with hkey
      · obtain rfl := Option.some.inj hc
        exact hkey ▸ hident
      · exact hw.2.1 k c (.inr hc)
  · by_cases hkey : k = d.candidateKey
    · subst hkey
      rcases hentry : stored? w d.candidateKey with _ | e
      · have hrow : row? w d.candidateKey = some d₀ :=
          (copy_of_visible hd₀).resolve_left (by simp [hentry])
        exact ⟨d, visible_of_row hentry ((rows _).trans (if_pos rfl)),
          hown d₀ hrow hbusy hstate hopen⟩
      · -- the row is hidden by the entry
        obtain rfl := Option.some.inj ((visible_of_entry hentry).symm.trans hd₀)
        exact ⟨e, visible_of_entry hentry, hbusy, hstate⟩
    · refine ⟨d₀, ?_, hbusy, hstate⟩
      rw [← hd₀, visible, visible, (rows k).trans (if_neg hkey)]

/-! ## Quiet steps -/

theorem exchange_of_quiet {o : BybitOp} (ho : QuietOp (.bybit o)) {slot : Slot}
    {s s' : String → Exposure} {a : Except JsError o.Val} (h : broker.respond slot o s a s') :
    s' = s := by
  cases o with
  | createOrder request => exact ho.elim
  | setTradingStop request => exact ho.elim
  | _ => exact h.2

theorem calm (name : String → String × String) (config : Config) (i : Slot) :
    Calm (service broker config) (Orderly name) (custody name config) i Quiet QuietOp where
  sync f w hf hw hok := by
    obtain ⟨hk, hr⟩ := (calm_quiet (orderly name config) i).sync f w hf hw.1 hok
    refine ⟨keeps_of_same hw hk (fun k => ?_) (fun _ => rfl) fun _ => .refl _, hr,
      fun _ _ _ _ => .refl _⟩
    rw [stored?, stored?, hf.direct]
  call o w a r ho hw ha hok := by
    obtain ⟨hk, hr⟩ := (calm_quiet (orderly name config) i).call o w a r ho hw.1 ha hok
    have hrow : ∀ k, row? (⟨w.mem, r⟩ : ServiceWorld broker) k = row? w k := fun k => by
      rw [row?, row?, Tables.row?, Tables.row?, (respond_quiet ho ha).1]
    have hexchange : r.exchange = w.remote.exchange := by
      cases o with
      | db o =>
        obtain ⟨out, -, rfl⟩ := ha
        rfl
      | bybit o =>
        obtain ⟨s, hs, rfl⟩ := ha
        exact exchange_of_quiet ho hs
      | toss => exact ha.2 ▸ rfl
      | polls => exact ha.2 ▸ rfl
      | held slot => exact ha.2 ▸ rfl
    have hfades : ∀ k, (exposure w k).Fades (exposure ⟨w.mem, r⟩ k) := fun k => by
      rw [exposure, exposure, hexchange]
      exact .refl _
    exact ⟨keeps_of_same hw hk (fun _ => rfl) hrow hfades, hr, fun k _ _ _ => hfades k⟩

/-! ## A command that a slot works on -/

/-- The steps of the slot are known to keep the stores. -/
abbrev granting (name : String → String × String) (config : Config) :
    Condition Slot Memory (Remote broker) JsError Op.Val :=
  Granting (Orderly name) (stores name config)

/-- The slot has taken the candidate; nothing is open for it, if `n`. -/
structure Kept (i : Slot) (n : Prop) (key : String) (w : ServiceWorld broker) : Prop where
  taken : ∃ d, visible w key = some d ∧ Stamped i d
  flat : n → (exposure w key).Flat

theorem kept_stable (i : Slot) (n : Prop) (key : String) :
    (custody name config).Stable i (Kept i n key) := by
  rintro w w' hr - ⟨⟨d, hd, hstamped⟩, hflat⟩
  exact ⟨⟨d, hr.rely.visible hstamped hd, hstamped⟩,
    fun hn => (hflat hn).fades (hr.fades key d hstamped hd)⟩

variable {n : Prop} {key : String} {c : Command} {α : Type}

/-- The rules for what is proved where the stores are known to be kept. -/
abbrev Granted (name : String → String × String) (config : Config) (i : Slot)
    (P : ServiceWorld broker → Prop) (p : Proc α) (Q : α → ServiceWorld broker → Prop)
    (E : JsError → ServiceWorld broker → Prop) : Prop :=
  Triple (service broker config) (granting name config) (custody name config) i P p Q E

theorem quiet_kept {p : Proc α} (hp : p.All Quiet QuietOp) :
    Granted name config i (Kept i n key) p (fun _ => Kept i n key) fun _ => Kept i n key :=
  (calm name config i).granting.triple hp (kept_stable i n key)

/-- A call whose error is only noted. -/
theorem orDegrade_kept {call : Proc α} (h : call.All Quiet QuietOp) (fallback : α) :
    Granted name config i (Kept i n key) (orDegrade call fallback) (fun _ => Kept i n key)
      fun _ => Kept i n key :=
  quiet_kept (all_orDegrade quiet_degrade h)

theorem ident_payloadOr {payload stored : Json} {id : String × String} (h : ident payload = id)
    (hstored : ident stored = id) : ident (payloadOr payload stored) = id := by
  unfold payloadOr
  split
  · exact h
  · exact hstored

/-- A command is put in memory that the slot has taken. -/
theorem Kept.put {m : Memory} {d : Command} (h : Kept i n d.candidateKey w)
    (direct : m.direct = w.mem.direct.put d) (hstamped : Stamped i d) :
    Kept i n d.candidateKey ⟨m, w.remote⟩ := by
  refine ⟨⟨d, visible_of_entry ?_, hstamped⟩, h.flat⟩
  rw [stored?, direct, CommandMap.get?_put, if_pos rfl]

/-- The entry of a command is rewritten, in the same state. -/
theorem Kept.rewrite {m : Memory} {stored stored' : Command} (hw : (custody name config).inv w)
    (h : Kept i n c.candidateKey w) (hs : stored? w c.candidateKey = some stored)
    (hk : (stores name config).Keeps i w ⟨m, w.remote⟩) (direct : m.direct = w.mem.direct.put stored')
    (hident : ident stored'.payload = name c.candidateKey)
    (key : stored'.candidateKey = stored.candidateKey) (state : stored'.state = stored.state)
    (slot : stored'.slotId = stored.slotId) :
    (custody name config).Keeps i w ⟨m, w.remote⟩ ∧ Kept i n c.candidateKey ⟨m, w.remote⟩ := by
  have hkey : stored'.candidateKey = c.candidateKey := key.trans (CommandMap.candidateKey_of_get? hs)
  have hvisible := visible_of_entry hs
  obtain ⟨d, hd, hstamped⟩ := h.taken
  obtain rfl : stored = d := Option.some.inj (hvisible.symm.trans hd)
  rw [← hkey] at h hident hvisible ⊢
  refine ⟨keeps_of_put hw hk direct hident fun d₀ hd₀ hbusy hstate _ => ?_,
    h.put direct ⟨slot.trans hstamped.1, state ▸ hstamped.2⟩⟩
  obtain rfl := Option.some.inj (hvisible.symm.trans hd₀)
  exact ⟨⟨slot.trans hbusy.1, state ▸ hbusy.2⟩, state ▸ hstate⟩

/-- The payload of a command is recorded in its entry. -/
theorem recordOrder_kept (hname : ident c.payload = name c.candidateKey) (status : String) :
    Granted name config i (Kept i n c.candidateKey) (recordOrder c status)
      (fun _ => Kept i n c.candidateKey) fun _ => Kept i n c.candidateKey := by
  have stable : (custody name config).Stable i (Kept i n c.candidateKey) :=
    kept_stable i n c.candidateKey
  refine .bind (.atomically stable (fun _ => stable) fun w hw h hok => ?_) fun usable => ?_
  · have hk : (stores name config).Keeps i w ⟨recordOrderDirect c w.mem, w.remote⟩ := hok.2 i rfl
    change (custody name config).Keeps i w ⟨recordOrderDirect c w.mem, w.remote⟩ ∧
      Kept i n c.candidateKey ⟨recordOrderDirect c w.mem, w.remote⟩
    unfold recordOrderDirect at hk ⊢
    rcases hs : w.mem.direct.get? c.candidateKey with _ | stored
    · simp only [hs] at hk ⊢
      exact ⟨keeps_of_same hw hk (fun _ => rfl) (fun _ => rfl) fun _ => .refl _, h⟩
    · simp only [hs] at hk ⊢
      exact h.rewrite hw hs hk rfl (ident_payloadOr hname (hw.2.1 _ stored (.inl hs))) rfl rfl rfl
  · split
    · refine orDegrade_kept ?_ ()
      exact .request trivial
    · exact .done_ok stable fun _ _ h => h

/-! ## Transitions -/

/-- The command is one of the key, for its symbol and its side. -/
structure Belongs (name : String → String × String) (key : String) (c : Command) : Prop where
  candidateKey : c.candidateKey = key
  ident : ident c.payload = name key

variable {s : CommandState}

/-- A command that a transition leaves is still taken, and it is given up only if nothing is
    open. -/
theorem moved_keeps {m : Memory} {d : Command} (hw : (custody name config).inv w)
    (h : Kept i n d.candidateKey w) (hk : (stores name config).Keeps i w ⟨m, w.remote⟩)
    (direct : m.direct = w.mem.direct.put d) (hident : ident d.payload = name d.candidateKey)
    (hslot : d.slotId = some i.id) (hs : d.state ≠ .available ∧ d.state ≠ .reserved)
    (hover : d.state.Terminal → n) :
    (custody name config).Keeps i w ⟨m, w.remote⟩ ∧ Kept i n d.candidateKey ⟨m, w.remote⟩ := by
  refine ⟨keeps_of_put hw hk direct hident fun _ _ _ _ hopen => ?_, h.put direct ⟨hslot, hs.1⟩⟩
  rcases CommandState.active_or_terminal hs.1 with hactive | hterminal
  · exact ⟨⟨hslot, hactive⟩, hs.2⟩
  · exact absurd (h.flat (hover hterminal)) hopen

theorem transitionDirect_kept (hname : ident c.payload = name c.candidateKey)
    (hslot : c.slotId = some i.id) (hs : s ≠ .available ∧ s ≠ .reserved) (hover : s.Terminal → n)
    {F : JsError → ServiceWorld broker → Prop} :
    Granted name config i (Kept i n c.candidateKey)
      (Prog.atomically fun m =>
        (((transitionDirect c s m).1, m.now), (transitionDirect c s m).2))
      (fun r w => (∀ c', r.1 = some c' → Belongs name c.candidateKey c') ∧
        Kept i n c.candidateKey w) F := by
  have stable : (custody name config).Stable i (Kept i n c.candidateKey) :=
    kept_stable i n c.candidateKey
  refine .atomically stable (fun _ => (Contract.Stable.const _).and stable) fun w hw h hok => ?_
  have hk : (stores name config).Keeps i w ⟨(transitionDirect c s w.mem).2, w.remote⟩ := hok.2 i rfl
  change (custody name config).Keeps i w ⟨(transitionDirect c s w.mem).2, w.remote⟩ ∧
    (∀ c', (transitionDirect c s w.mem).1 = some c' → Belongs name c.candidateKey c') ∧
      Kept i n c.candidateKey ⟨(transitionDirect c s w.mem).2, w.remote⟩
  unfold transitionDirect at hk ⊢
  rcases hd : w.mem.direct.get? c.candidateKey with _ | stored
  · simp only [hd] at hk ⊢
    split_ifs at hk ⊢
    · exact ⟨keeps_of_same hw hk (fun _ => rfl) (fun _ => rfl) fun _ => .refl _,
        fun _ => False.elim, h⟩
    · obtain ⟨hkeeps, hkept⟩ := moved_keeps (d := shadow c s w.mem.now) hw h hk rfl hname hslot hs hover
      exact ⟨hkeeps, fun c' hc' => Option.some.inj hc' ▸ ⟨rfl, hname⟩, hkept⟩
  · simp only [hd] at hk ⊢
    have hkey : stored.candidateKey = c.candidateKey := CommandMap.candidateKey_of_get? hd
    have hident : ident (moved stored c s w.mem.now).payload = name c.candidateKey :=
      ident_payloadOr hname (hw.2.1 _ stored (.inl hd))
    rw [← hkey] at h hident ⊢
    obtain ⟨hkeeps, hkept⟩ :=
      moved_keeps (d := moved stored c s w.mem.now) hw h hk rfl hident hslot hs hover
    exact ⟨hkeeps, fun c' hc' => Option.some.inj hc' ▸ ⟨rfl, hident⟩, hkept⟩

/-- The tables are as they were. -/
theorem Kept.same {r : Remote broker} (hw : (custody name config).inv w) (h : Kept i n key w)
    (hk : (stores name config).Keeps i w ⟨w.mem, r⟩)
    (commands : r.tables.commands = w.remote.tables.commands)
    (exchange : r.exchange = w.remote.exchange) :
    (custody name config).Keeps i w ⟨w.mem, r⟩ ∧ Kept i n key ⟨w.mem, r⟩ := by
  have hrow : ∀ k, row? (⟨w.mem, r⟩ : ServiceWorld broker) k = row? w k := fun k => by
    rw [row?, row?, Tables.row?, Tables.row?, commands]
  have hfades : ∀ k, (exposure w k).Fades (exposure ⟨w.mem, r⟩ k) := fun k => by
    rw [exposure, exposure, exchange]
    exact .refl _
  have hentry : ∀ k, stored? (⟨w.mem, r⟩ : ServiceWorld broker) k = stored? w k := fun _ => rfl
  obtain ⟨d, hd, hstamped⟩ := h.taken
  exact ⟨keeps_of_same hw hk hentry hrow hfades,
    ⟨d, (visible_of_copies hentry hrow key).trans hd, hstamped⟩,
    fun hn => (h.flat hn).fades (hfades key)⟩

/-- The row of a command moves. -/
theorem Kept.updated {r : Remote broker} {row : Command} {now : ℕ}
    (hw : (custody name config).inv w) (h : Kept i n c.candidateKey w)
    (hk : (stores name config).Keeps i w ⟨w.mem, r⟩) (hslot : c.slotId = some i.id)
    (hs : s ≠ .available ∧ s ≠ .reserved) (hover : s.Terminal → n)
    (hrow : row? w c.candidateKey = some row) (hfence : Tables.Fence row c)
    (rows : ∀ k, r.tables.row? k = if k = c.candidateKey then
      some { row with state := s, updatedAt := now } else row? w k)
    (exchange : r.exchange = w.remote.exchange) :
    (custody name config).Keeps i w ⟨w.mem, r⟩ ∧ Kept i n c.candidateKey ⟨w.mem, r⟩ := by
  have hkey : row.candidateKey = c.candidateKey := CommandMap.candidateKey_of_get? hrow
  have hslot' : row.slotId = some i.id := hfence.2.2.1.trans hslot
  constructor
  · refine keeps_of_row (d := { row with state := s, updatedAt := now }) hw hk (by rwa [← hkey] at rows)
      exchange ((hw.2.1 _ row (.inr hrow)).trans (by rw [← hkey])) fun _ _ _ _ hopen => ?_
    rcases CommandState.active_or_terminal hs.1 with hactive | hterminal
    · exact ⟨⟨hslot', hactive⟩, hs.2⟩
    · exact absurd (hkey ▸ h.flat (hover hterminal)) hopen
  · refine ⟨?_, fun hn => ?_⟩
    · rcases hentry : stored? w c.candidateKey with _ | e
      · exact ⟨_, visible_of_row hentry ((rows _).trans (if_pos rfl)), hslot', hs.1⟩
      · obtain ⟨d, hd, hstamped⟩ := h.taken
        obtain rfl := Option.some.inj ((visible_of_entry hentry).symm.trans hd)
        exact ⟨e, visible_of_entry hentry, hstamped⟩
    · have hflat := h.flat hn
      rwa [exposure, ← exchange] at hflat

theorem updateState_kept (hslot : c.slotId = some i.id)
    (hs : s ≠ .available ∧ s ≠ .reserved) (hover : s.Terminal → n) (now : ℕ)
    (edge : s ∈ CommandState.TRANSITIONS c.state) :
    Granted name config i (Kept i n c.candidateKey) (database (.updateState c s edge now))
      (fun r w => (∀ row, r = some row → Belongs name c.candidateKey row) ∧
        Kept i n c.candidateKey w) fun _ => Kept i n c.candidateKey := by
  have stable : (custody name config).Stable i (Kept i n c.candidateKey) :=
    kept_stable i n c.candidateKey
  refine .request stable (fun _ => (Contract.Stable.const _).and stable) (fun _ => stable)
    fun w a r hw h ha hok => ?_
  have hk := hok.2 i rfl
  obtain ⟨out, rfl, rfl⟩ := ha
  obtain ⟨hnone, -⟩ | ⟨row, updated, hrow, hfence, rfl, hsome, hrows⟩ :=
    w.remote.tables.updateState_cases c s edge now
  · have same : ((DbOp.updateState c s edge now).answer out w.remote.tables).2 =
        w.remote.tables := by
      cases out with
      | done locked => exact congrArg Prod.snd hnone
      | lost reason => rfl
      | unacknowledged locked reason => exact congrArg Prod.snd hnone
    obtain ⟨hkeeps, hkept⟩ := h.same hw hk (congrArg Tables.commands same) rfl
    refine ⟨hkeeps, ?_⟩
    cases out with
    | done locked =>
      have hval : ((DbOp.updateState c s edge now).answer (.done locked) w.remote.tables).1 =
          .ok none := congrArg Except.ok (congrArg Prod.fst hnone)
      simp only [hval]
      exact ⟨fun _ hr => (Option.some_ne_none _ hr.symm).elim, hkept⟩
    | lost reason => exact hkept
    | unacknowledged locked reason => exact hkept
  · cases out with
    | lost reason => exact h.same hw hk rfl rfl
    | done locked =>
      obtain ⟨hkeeps, hkept⟩ := h.updated hw hk hslot hs hover hrow hfence hrows rfl
      refine ⟨hkeeps, ?_⟩
      have hval : ((DbOp.updateState c s edge now).answer (.done locked) w.remote.tables).1 =
          .ok (some _) := congrArg Except.ok hsome
      simp only [hval]
      have hkey : row.candidateKey = c.candidateKey := CommandMap.candidateKey_of_get? hrow
      have hbelongs : Belongs name c.candidateKey { row with state := s, updatedAt := now } :=
        ⟨hkey, hw.2.1 _ row (.inr hrow)⟩
      exact ⟨fun _ hr => Option.some.inj hr ▸ hbelongs, hkept⟩
    | unacknowledged locked reason =>
      exact h.updated hw hk hslot hs hover hrow hfence hrows rfl

/-- A transition: to an end only when nothing is open. -/
theorem transition_kept (hname : ident c.payload = name c.candidateKey)
    (hslot : c.slotId = some i.id) (hs : s ≠ .available ∧ s ≠ .reserved) (hover : s.Terminal → n)
    {F : JsError → ServiceWorld broker → Prop} :
    Granted name config i (Kept i n c.candidateKey) (transition c s)
      (fun c' w => Belongs name c.candidateKey c' ∧ Kept i n c.candidateKey w) F := by
  have stable : (custody name config).Stable i (Kept i n c.candidateKey) :=
    kept_stable i n c.candidateKey
  have known : ∀ c' : Command, (custody name config).Stable i fun w =>
      Belongs name c.candidateKey c' ∧ Kept i n c.candidateKey w :=
    fun _ => (Contract.Stable.const _).and stable
  refine .bind (transitionDirect_kept hname hslot hs hover) fun (direct, now) => ?_
  rcases direct with _ | c'
  · refine .handle (E := fun _ => Kept i n c.candidateKey) (.bind (Q := fun c' w =>
      Belongs name c.candidateKey c' ∧ Kept i n c.candidateKey w) ?_ fun row => ?_) fun e => ?_
    · refine .conseq (P := Kept i n c.candidateKey) ?_ (fun _ _ h => h.2) (fun _ _ _ h => h)
        fun _ _ _ h => h
      unfold ExecutionRepository.transition
      split
      · refine .bind (updateState_kept hslot hs hover now _) fun r => ?_
        rcases r with _ | row
        · exact .done_error stable fun _ _ h => h.2
        · exact .done_ok (known row) fun _ _ h => ⟨h.1 row rfl, h.2⟩
      · exact .done_error stable fun _ _ h => h
    · exact .done_ok (known _) fun _ _ h => ⟨⟨h.1.candidateKey, h.1.ident⟩, h.2⟩
    · refine .atomically stable known fun w hw h hok => ?_
      have hk := hok.2 i rfl
      obtain ⟨hkeeps, hkept⟩ := moved_keeps (d := shadow c s w.mem.now) hw h hk rfl hname hslot hs hover
      exact ⟨hkeeps, ⟨rfl, hname⟩, hkept⟩
  · exact .done_ok (known c') fun _ _ h => ⟨h.1 c' rfl, h.2⟩

/-! ## Taking commands -/

/-- The command is for the symbol and the side of its key. -/
def Given (name : String → String × String) (r : Option Command) : Prop :=
  ∀ c, r = some c → ident c.payload = name c.candidateKey

theorem given_none : Given name none := fun _ h => (Option.some_ne_none _ h.symm).elim

theorem Given.postgresql {r : Option Command} (h : Given name r) :
    Given name (r.map fun c => { c with source := .postgresql }) := by
  intro c hc
  obtain ⟨d, rfl, rfl⟩ := Option.map_eq_some_iff.1 hc
  exact h d rfl

theorem Named.given (h : Named name w) {c : Command} (hc : Copy w c.candidateKey c) :
    Given name (some c) := fun _ hd => Option.some.inj hd ▸ h _ c hc

variable {P : ServiceWorld broker → Prop} {r : Option Command}

theorem always : (custody name config).Stable i fun _ => True := fun _ _ _ _ _ => trivial

theorem given_stable (r : Option Command) :
    (custody name config).Stable i fun _ => Given name r := .const _

theorem quiet_always {p : Proc α} (hp : p.All Quiet QuietOp) :
    Granted name config i (fun _ => True) p (fun _ _ => True) fun _ _ => True :=
  (calm name config i).granting.triple hp always

/-- What a call returns is returned where its error is only noted, or nothing is. -/
theorem orDegrade_given {call : Proc (Option Command)}
    (h : Granted name config i (fun _ => True) call (fun r _ => Given name r) fun _ _ => True) :
    Granted name config i (fun _ => True) (orDegrade call none) (fun r _ => Given name r)
      fun _ _ => True :=
  .handle h fun e => .bind (quiet_always (.modify (quiet_degrade e.message))) fun _ =>
    .done_ok (given_stable none) fun _ _ _ => given_none

theorem recorded_given {kind : CallKind} {call : Proc (Option Command)}
    (h : Granted name config i (fun _ => True) call (fun r _ => Given name r) fun _ _ => True) :
    Granted name config i (fun _ => True) (SlotLoop.recorded i kind call) (fun r _ => Given name r)
      fun _ _ => True := by
  refine .bind (quiet_always (.request trivial)) fun held => .bind h fun r => ?_
  refine .bind (Q := fun _ _ => Given name r) (.atomically (given_stable r) (fun _ => given_stable r)
    fun w hw h hok => ⟨?_, h⟩) fun _ => .done_ok (given_stable r) fun _ _ h => h
  exact keeps_of_same hw (hok.2 i rfl) (fun _ => rfl) (fun _ => rfl) fun _ => .refl _

theorem ownedActiveCommand_given (ownerId : String) (slotId : ℕ) :
    Granted name config i (fun _ => True) (ownedActiveCommand ownerId slotId)
      (fun r _ => Given name r) fun _ _ => True := by
  refine .bind (Q := fun r _ => Given name r.1) (.read always (fun r => given_stable r.1)
    fun w hw _ => ?_) fun (direct, usable) => ?_
  · intro c hc
    have hmem := CommandMap.mem_commands.1 (List.mem_of_find?_eq_some hc)
    exact hw.2.1 _ c (.inl hmem)
  · rcases direct with _ | c
    · refine .conseq (P := fun _ => True) ?_ (fun _ _ _ => trivial) (fun _ _ _ h => h)
        fun _ _ _ h => h
      dsimp only
      split
      · refine orDegrade_given (.bind (Q := fun r _ => Given name r) (.request always given_stable
          (fun _ => always) fun w a r hw _ ha hok => ?_) fun r => ?_)
        · obtain ⟨out, rfl, rfl⟩ := ha
          have hcommands := DbOp.Quiet.commands_answer (o := .selectOwned ownerId slotId) trivial out
            w.remote.tables
          refine ⟨keeps_of_same hw (hok.2 i rfl) (fun _ => rfl) (fun k => ?_) fun _ => .refl _, ?_⟩
          · rw [row?, row?, Tables.row?, Tables.row?, hcommands]
          · cases out with
            | done locked =>
              intro c hc
              have hrow := (Tables.mem_activeRows.1 (List.mem_of_find?_eq_some hc)).1
              exact hw.2.1 _ c (.inr hrow)
            | lost reason => trivial
            | unacknowledged locked reason => trivial
        · exact .done_ok (given_stable _) fun _ _ h => h.postgresql
      · exact .done_ok (given_stable none) fun _ _ _ => given_none
    · exact .done_ok (given_stable (some c)) fun _ _ h => h

theorem claimDirect_given (ownerId : String) (slotId : ℕ) :
    Granted name config i (fun _ => True)
      (Prog.atomically fun m => (((claimDirect ownerId slotId m).1, m.usable, m.now),
        (claimDirect ownerId slotId m).2)) (fun r _ => Given name r.1) fun _ _ => True := by
  refine .atomically always (fun r => given_stable r.1) fun w hw _ hok => ?_
  have hk : (stores name config).Keeps i w ⟨(claimDirect ownerId slotId w.mem).2, w.remote⟩ :=
    hok.2 i rfl
  change (custody name config).Keeps i w ⟨(claimDirect ownerId slotId w.mem).2, w.remote⟩ ∧
    Given name (claimDirect ownerId slotId w.mem).1
  unfold claimDirect at hk ⊢
  rcases he : firstAvailable w.mem with _ | stored
  · simp only [he] at hk ⊢
    exact ⟨keeps_of_same hw hk (fun _ => rfl) (fun _ => rfl) fun _ => .refl _, given_none⟩
  · simp only [he] at hk ⊢
    obtain ⟨hbefore, havailable⟩ := firstAvailable_some he
    have hident := hw.2.1 _ stored (.inl hbefore)
    refine ⟨keeps_of_put hw hk rfl hident fun d₀ hd₀ hbusy _ _ => ?_,
      fun c hc => Option.some.inj hc ▸ hident⟩
    -- what is available is nobody's work
    obtain rfl := Option.some.inj ((visible_of_entry hbefore).symm.trans hd₀)
    exact absurd havailable hbusy.2.ne_available

/-- A row that is available may be taken. -/
theorem claimed_given {r : Remote broker} {locked : String → Bool} {ownerId : String}
    {slotId now : ℕ} (hw : (custody name config).inv w)
    (hk : (stores name config).Keeps i w ⟨w.mem, r⟩)
    (tables : r.tables = (w.remote.tables.claim locked ownerId slotId now).2)
    (exchange : r.exchange = w.remote.exchange) :
    (custody name config).Keeps i w ⟨w.mem, r⟩ ∧
      Given name (w.remote.tables.claim locked ownerId slotId now).1 := by
  have hfades : ∀ k, (exposure w k).Fades (exposure ⟨w.mem, r⟩ k) := fun k => by
    rw [exposure, exposure, exchange]
    exact .refl _
  obtain hnone | ⟨row, claimed, hrow, havailable, -, -, rfl, hsome, hrows⟩ :=
    w.remote.tables.claim_cases locked ownerId slotId now
  · rw [hnone] at tables ⊢
    refine ⟨keeps_of_same hw hk (fun _ => rfl) (fun k => ?_) hfades, given_none⟩
    rw [row?, tables]
  · rw [← tables] at hrows
    rw [hsome]
    have hident := hw.2.1 _ row (.inr hrow)
    refine ⟨keeps_of_row (d := { row with
      state := .reserved
      slotId := some slotId
      ownerId := some ownerId
      updatedAt := now }) hw hk hrows exchange hident fun d₀ hd₀ hbusy _ _ => ?_,
      fun c hc => Option.some.inj hc ▸ hident⟩
    obtain rfl := Option.some.inj (hrow.symm.trans hd₀)
    exact absurd havailable hbusy.2.ne_available

theorem databaseClaim_given (ownerId : String) (slotId now : ℕ) :
    Granted name config i (fun _ => True) (database (.claim ownerId slotId now))
      (fun r _ => Given name r) fun _ _ => True := by
  refine .request always given_stable (fun _ => always) fun w a r hw _ ha hok => ?_
  have hk := hok.2 i rfl
  obtain ⟨out, rfl, rfl⟩ := ha
  cases out with
  | done locked => exact claimed_given hw hk rfl rfl
  | lost reason => exact ⟨keeps_of_same hw hk (fun _ => rfl) (fun _ => rfl) fun _ => .refl _, trivial⟩
  | unacknowledged locked reason => exact ⟨(claimed_given hw hk rfl rfl).1, trivial⟩

theorem claim_given (ownerId : String) (slotId : ℕ) :
    Granted name config i (fun _ => True) (claim ownerId slotId) (fun r _ => Given name r)
      fun _ _ => True := by
  have nothing : ∀ {P : ServiceWorld broker → Prop}, Granted name config i P (.done (.ok none))
      (fun r _ => Given name r) fun _ _ => True :=
    .done_ok (given_stable none) fun _ _ _ => given_none
  refine .bind (quiet_always (.require _ _)) fun _ =>
    .bind (quiet_always activeCommands_quiet) fun active => ?_
  split
  · exact nothing
  · refine .bind (claimDirect_given ownerId slotId) fun (direct, usable, now) => ?_
    rcases direct with _ | c
    · rcases usable with _ | _
      · exact nothing
      · refine .conseq (P := fun _ => True) ?_ (fun _ _ _ => trivial) (fun _ _ _ h => h)
          fun _ _ _ h => h
        exact orDegrade_given (.bind (.bind (quiet_always (.require _ _)) fun _ =>
          databaseClaim_given ownerId slotId now) fun row =>
            .done_ok (given_stable _) fun _ _ h => h.postgresql)
    · exact .done_ok (given_stable (some c)) fun _ _ h => h

theorem nextCommand_given :
    Granted name config i (fun _ => True) (SlotLoop.nextCommand config i) (fun r _ => Given name r)
      fun _ _ => True := by
  refine .bind (recorded_given (ownedActiveCommand_given _ _)) fun r => ?_
  rcases r with _ | c
  · refine .conseq (P := fun _ => True) ?_ (fun _ _ _ => trivial) (fun _ _ _ h => h)
      fun _ _ _ h => h
    refine .bind (quiet_always (.read _ quiet_id)) fun recovering => ?_
    split
    · exact .done_ok (given_stable none) fun _ _ _ => given_none
    · exact recorded_given (claim_given _ _)
  · exact .done_ok (given_stable (some c)) fun _ _ h => h

end Custody

end IntradayBot.Node
