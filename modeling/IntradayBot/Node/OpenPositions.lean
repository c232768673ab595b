import IntradayBot.Node.Custody
import IntradayBot.Node.OneOwner

/-!
# Open positions are in custody

Of an order that was sent, `waitForResolution` says `FAILED` only where nothing was filled, and a
position that is not shown is not there. With the custody of the commands (`custody`), no slot
gives its candidate up while a position of it is open (`held_in_custody`).
-/

namespace IntradayBot.Node

open Coop HybridRepository

namespace Custody

variable {name : String → String × String} {config : Config} {i : Slot}
  {w w' : ServiceWorld broker} {n : Prop} {key : String} {c : Command} {α : Type}

/-! ## Orders -/

/-- A request to the exchange that opens nothing. -/
theorem bybit_kept {o : BybitOp}
    (ho : ∀ s s' a, broker.respond i o s a s' → ∀ k, (s k).Fades (s' k)) :
    Granted name config i (Kept i n key) (bybit o) (fun _ => Kept i n key)
      fun _ => Kept i n key := by
  have stable : (custody name config).Stable i (Kept i n key) := kept_stable i n key
  refine .request stable (fun _ => stable) (fun _ => stable) fun w a r hw h ha hok => ?_
  have hk := hok.2 i rfl
  obtain ⟨s, hs, rfl⟩ := ha
  have hfades := ho _ s a hs
  have hkept : Kept i n key ⟨w.mem, { w.remote with
      exchange := s
      orders := requested o w.remote.orders }⟩ := ⟨h.taken, fun hn => (h.flat hn).fades (hfades key)⟩
  refine ⟨keeps_of_same hw hk (fun _ => rfl) (fun _ => rfl) hfades, ?_⟩
  cases a <;> exact hkept

/-- The slot works on the candidate, which is past its reservation, and nothing is open for it. -/
structure Pending (i : Slot) (key : String) (w : ServiceWorld broker) : Prop where
  working : ∃ d, visible w key = some d ∧ Busy i d ∧ d.state ≠ .reserved
  flat : (exposure w key).Flat

theorem pending_stable (i : Slot) (key : String) :
    (custody name config).Stable i (Pending i key) := by
  rintro w w' hr - ⟨⟨d, hd, hbusy, hstate⟩, hflat⟩
  exact ⟨⟨d, hr.rely.visible hbusy.stamped hd, hbusy, hstate⟩,
    hflat.fades (hr.fades key d hbusy.stamped hd)⟩

/-- An entry order: what it opens is for the symbol and the side of its key, which is being worked
    on. -/
theorem createOrder_kept {payload : Json} (hname : ident payload = name key) :
    Granted name config i (Pending i key)
      (bybit (.createOrder (Executor.entryOrder payload (Executor.orderLinkId key))))
      (fun _ => Kept i False key) fun e w =>
        Kept i ((∃ code message, e = .api code message)) key w := by
  have stable : ∀ n, (custody name config).Stable i (Kept i n key) := fun n => kept_stable i n key
  refine .request (pending_stable i key) (fun _ => stable _) (fun _ => stable _)
    fun w a r hw h ha hok => ?_
  have hk := hok.2 i rfl
  obtain ⟨s, ⟨-, hs⟩, rfl⟩ := ha
  obtain ⟨⟨d, hd, hbusy, hstate⟩, hflat⟩ := h
  rcases hs with ⟨rfl, hrefused⟩ | ⟨⟨hothers, hkey⟩, haccepted⟩
  · refine ⟨keeps_of_same hw hk (fun _ => rfl) (fun _ => rfl) fun _ => .refl _, ?_⟩
    rcases a with e | id
    · exact ⟨⟨d, hd, hbusy.stamped⟩, fun _ => hflat⟩
    · exact absurd rfl (hrefused id)
  · refine ⟨⟨⟨hk.inv, hw.2.1, fun k symbol side hheld => ?_⟩, fun j hj => ⟨hk.rely j hj,
      fun k d' hd' hv => ?_⟩, hk.step⟩, ?_⟩
    · by_cases hkk : k = key
      · subst hkk
        refine ⟨?_, i, d, hd, hbusy, hstate⟩
        rcases hkey with ⟨-, hopened | hover⟩ | ⟨-, hsame⟩
        · have hheld' := hopened.symm.trans hheld
          injection hheld' with hsymbol hside
          rw [← hname, ← hsymbol, ← hside]
          rfl
        · exact absurd (hover.symm.trans hheld) (by simp)
        · exact absurd (hsame.symm.trans hheld) (hflat symbol side)
      · exact hw.2.2 k symbol side ((hothers k hkk).symm.trans hheld)
    · by_cases hkk : k = key
      · subst hkk
        obtain rfl := Option.some.inj (hd.symm.trans hv)
        exact absurd (hbusy.stamped.unique hd') (Ne.symm hj)
      · exact .inl (hothers k hkk)
    · rcases a with e | id
      · refine ⟨⟨d, hd, hbusy.stamped⟩, ?_⟩
        rintro ⟨code, message, rfl⟩
        exact absurd rfl (haccepted code message)
      · exact ⟨⟨d, hd, hbusy.stamped⟩, False.elim⟩

/-! ## What becomes of an order -/

/-- A wait that answers `FAILED` saw that nothing was filled. -/
theorem flat_of_failed {s : Exposure} {order : Option OrderRow}
    {executions : List ExecutionRow} {expectedQty : Option ℚ}
    (hshown : ∀ row, order = some row → ShowsFill s row)
    (htotal : (ExecutionRow.totalQty executions).isSome)
    (h : BybitClient.resolve order executions expectedQty = some .failed) : s.Flat := by
  obtain ⟨hended, hexecuted⟩ : Json.textOrEmpty (order.bind OrderRow.orderStatus) ∈
      ["Cancelled", "Rejected", "Deactivated", "Expired"] ∧
        (BybitClient.cumulativeQty order executions).any (0 < ·) = false := by
    unfold BybitClient.resolve at h
    dsimp only at h
    generalize (if Json.truthy (order.bind OrderRow.qty) then
      Json.toNumber (order.bind OrderRow.qty) else some (expectedQty.getD 0)) = requested at h
    split_ifs at h with h₁ h₂ h₃ h₄
    · cases h
    · cases h
    · cases h
    · exact ⟨h₃, Bool.eq_false_iff.2 h₄⟩
  rcases order with _ | row
  · simp [Json.textOrEmpty, Json.truthy] at hended
  · rcases hshown row rfl with hflat | ⟨q, hq, hpos⟩
    · exact hflat
    · obtain ⟨t, ht⟩ := Option.isSome_iff_exists.1 htotal
      have hmax : 0 < max q t := lt_max_of_lt_left hpos
      simp [BybitClient.cumulativeQty, hq, ht, hmax] at hexecuted

theorem Kept.mono {n' : Prop} (h : Kept i n key w) (hn : n' → n) : Kept i n' key w :=
  ⟨h.taken, fun h' => h.flat (hn h')⟩

/-- What is read of the exchange is true when it is read. -/
theorem looked {o : BybitOp} (ho : QuietOp (.bybit o)) {Q : o.Val → ServiceWorld broker → Prop}
    (hQ : ∀ v, (custody name config).Stable i (Q v))
    (h : ∀ v w, (custody name config).inv w → Kept i n key w → Truthful w.remote.exchange o v →
      Q v w) :
    Granted name config i (Kept i n key) (bybit o) Q fun _ => Kept i n key := by
  have stable : (custody name config).Stable i (Kept i n key) := kept_stable i n key
  refine .request stable hQ (fun _ => stable) fun w a r hw hkept ha hok => ?_
  obtain ⟨s, hs, rfl⟩ := ha
  obtain rfl := exchange_of_quiet ho hs
  have hk : (custody name config).Keeps i w ⟨w.mem, { w.remote with
      exchange := w.remote.exchange
      orders := requested o w.remote.orders }⟩ :=
    keeps_of_same hw (hok.2 i rfl) (fun _ => rfl) (fun _ => rfl) fun _ => .refl _
  refine ⟨hk, ?_⟩
  rcases a with e | v
  · exact ⟨hkept.taken, hkept.flat⟩
  · exact h v _ hk.inv ⟨hkept.taken, hkept.flat⟩ (hs.1 v rfl)

/-- The order that was found shows its fills. -/
structure Found (i : Slot) (key : String) (order : Option OrderRow) (w : ServiceWorld broker) :
    Prop where
  kept : Kept i False key w
  shown : ∀ row, order = some row → ShowsFill (exposure w key) row

theorem found_stable (i : Slot) (key : String) (order : Option OrderRow) :
    (custody name config).Stable i (Found i key order) := by
  rintro w w' hr hi ⟨hkept, hshown⟩
  obtain ⟨d, hd, hstamped⟩ := hkept.taken
  exact ⟨kept_stable i False key w w' hr hi hkept, fun row hrow =>
    (hshown row hrow).imp_left fun hflat => hflat.fades (hr.fades key d hstamped hd)⟩

theorem findOrder_found (symbol : String) :
    Granted name config i (Kept i False key) (BybitClient.findOrder symbol (.entry key))
      (Found i key) fun _ => Kept i False key := by
  refine .bind (Q := fun rows => Found i key rows.head?)
    (looked (o := .realtimeOrder symbol (.entry key)) trivial (fun _ => found_stable _ _ _)
      fun rows w _ hkept htrue => ⟨hkept, fun row hrow => htrue row (List.mem_of_head? hrow)⟩)
    fun rows => ?_
  rcases rows with _ | ⟨current, rows⟩
  · refine .conseq (P := Kept i False key) ?_ (fun _ _ h => h.kept) (fun _ _ _ h => h)
      fun _ _ _ h => h
    refine .bind (Q := fun rows => Found i key rows.head?)
      (looked (o := .orderHistory symbol (.entry key)) trivial (fun _ => found_stable _ _ _)
        fun rows w _ hkept htrue => ⟨hkept, fun row hrow => htrue row (List.mem_of_head? hrow)⟩)
      fun rows => ?_
    exact .done_ok (found_stable _ _ _) fun _ _ h => h
  · exact .done_ok (found_stable _ _ _) fun _ _ h => h

/-- The polls of an order: they answer `FAILED` only if nothing is open. -/
theorem poll_kept (symbol : String) (expectedQty : Option ℚ) (polls : ℕ)
    (order : Option OrderRow) (executions : List ExecutionRow) :
    Granted name config i (Kept i False key)
      (BybitClient.poll symbol (.entry key) expectedQty polls order executions)
      (fun r => Kept i (r.state = .failed) key) fun _ => Kept i False key := by
  have stable : ∀ n, (custody name config).Stable i (Kept i n key) := fun n => kept_stable i n key
  have executed : Granted name config i (Kept i False key) (bybit (.executions symbol (.entry key)))
      (fun rows w => Kept i False key w ∧ (ExecutionRow.totalQty rows).isSome)
      fun _ => Kept i False key :=
    looked (o := .executions symbol (.entry key)) trivial (fun _ => (stable False).and (.const _))
      fun rows w _ hkept htrue => ⟨hkept, htrue⟩
  have hquiet : (bybit (.executions symbol (.entry key))).All Quiet QuietOp := .request trivial
  induction polls generalizing order executions with
  | zero =>
    refine .done_ok (stable _) fun w _ h => h.mono fun hfailed => ?_
    dsimp only at hfailed
    split_ifs at hfailed
  | succ polls ih =>
    refine .bind (Q := fun (seen : Option OrderRow × List ExecutionRow) w => Found i key seen.1 w ∧
      Kept i False key w ∧ (ExecutionRow.totalQty seen.2).isSome)
      ((calm name config i).granting.par (show QuietOp .toss from trivial)
        (SlotRules.findOrder_quiet _ _) hquiet (found_stable i key)
        (fun _ => (stable False).and (.const _)) (fun _ => stable False) (findOrder_found symbol)
        executed) fun (order, executions) => ?_
    dsimp only
    split
    · rename_i state hstate
      refine .done_ok (stable _) fun w _ h => ⟨h.1.kept.taken, fun hfailed => ?_⟩
      obtain rfl : state = .failed := hfailed
      exact flat_of_failed h.1.shown h.2.2 hstate
    · exact (ih order executions).conseq (fun _ _ h => h.1.kept) (fun _ _ _ h => h)
        fun _ _ _ h => h

theorem waitForResolution_kept (symbol : String) (expectedQty : Option ℚ) :
    Granted name config i (Kept i False key)
      (BybitClient.waitForResolution symbol (.entry key) expectedQty)
      (fun r => Kept i (r.state = .failed) key) fun _ => Kept i False key :=
  .bind (quiet_kept (.request trivial)) fun polls => poll_kept symbol expectedQty polls none []

/-- A position that does not show is not there. -/
theorem position_kept (hname : ident c.payload = name c.candidateKey) :
    Granted name config i (Kept i False c.candidateKey)
      (bybit (.position (Json.toText (c.payload.get "symbol"))))
      (fun rows => Kept i (¬showsPosition c rows) c.candidateKey)
      fun _ => Kept i False c.candidateKey := by
  refine looked (o := .position (Json.toText (c.payload.get "symbol"))) trivial
    (fun _ => kept_stable i _ _) fun rows w hw hkept htrue =>
      ⟨hkept.taken, fun hnone symbol side hheld => hnone ?_⟩
  have hident : ident c.payload = (symbol, side) := hname.trans (hw.2.2 _ symbol side hheld).1
  obtain ⟨rfl, rfl⟩ := Prod.mk.inj hident
  obtain ⟨row, hrow, hopen, hside⟩ := htrue _ _ hheld
  exact ⟨row, hrow, hopen, hside⟩

/-! ## Before the order -/

theorem ident_sized {payload : Json} {truth : LiveSizer.Truth} {nowSeconds : ℕ}
    (x : LiveSizer.Plan) : ident (x.sized payload truth nowSeconds) = ident payload := by
  simp [ident, LiveSizer.Plan.sized, LiveSizer.sizedProps]

theorem prepareLiveExecution_kept (payload : Json) (linkId : LinkId) :
    Granted name config i (Kept i n key) (Executor.prepareLiveExecution config c payload linkId)
      (fun plan w => ident plan = ident payload ∧ Kept i n key w) fun _ => Kept i n key := by
  have stable : (custody name config).Stable i (Kept i n key) := kept_stable i n key
  refine .bind (quiet_kept (.ofExcept _)) fun _ => .bind (quiet_kept ?_) fun truth =>
    .bind (quiet_kept (.read _ quiet_id)) fun now => ?_
  · exact .bind (.read _ quiet_id) fun (amount, usable) => .bind (.par trivial (.request trivial) <|
      .par trivial (.request trivial) <| .par trivial (.request trivial) <|
      .par trivial (.request trivial) <| .par trivial (.request trivial) <|
      .par trivial (.request trivial) <| addReservedRows_quiet _ _ _) fun _ => .ret _
  · rcases hplan : LiveSizer.buildLiveExecutionPlan payload truth config now with e | plan
    · exact .done_error stable fun _ _ h => h
    · obtain ⟨x, -, rfl⟩ := LiveSizer.buildLiveExecutionPlan_eq_ok hplan
      exact .done_ok ((Contract.Stable.const _).and stable) fun _ _ h => ⟨ident_sized x, h⟩

/-- The size of a command is published. -/
theorem mark_kept {payload : Json} (hname : ident payload = name c.candidateKey) :
    Granted name config i (Kept i n c.candidateKey)
      (Prog.atomically (markExecutionPayload { c with payload := payload } payload))
      (fun c' w => c' = { c with payload := payload } ∧ Kept i n c.candidateKey w)
      fun _ => Kept i n c.candidateKey := by
  have stable : (custody name config).Stable i (Kept i n c.candidateKey) :=
    kept_stable i n c.candidateKey
  refine .atomically stable (fun _ => (Contract.Stable.const _).and stable) fun w hw h hok => ?_
  have hk := hok.2 i rfl
  unfold markExecutionPayload at hk ⊢
  rcases hs : w.mem.direct.get? c.candidateKey with _ | stored
  · simp only [hs] at hk ⊢
    exact ⟨keeps_of_same hw hk (fun _ => rfl) (fun _ => rfl) fun _ => .refl _, trivial, h⟩
  · simp only [hs] at hk ⊢
    obtain ⟨hkeeps, hkept⟩ := h.rewrite hw hs hk rfl hname rfl rfl rfl
    exact ⟨hkeeps, trivial, hkept⟩

/-- What is known of a command that became `ORDER_PENDING`. -/
def Intended (name : String → String × String) (i : Slot) (key : String)
    (pending : Executor.Pending) (w : ServiceWorld broker) : Prop :=
  match pending with
  | .recovered c' => ident c'.payload = name key ∧ Kept i False key w
  | .sized c' payload => ident c'.payload = name key ∧ ident payload = name key ∧ Kept i True key w

theorem prepare_kept (hname : ident c.payload = name c.candidateKey)
    (hslot : c.slotId = some i.id) :
    Granted name config i (Kept i True c.candidateKey)
      (Executor.prepare config c (Executor.orderLinkId c.candidateKey))
      (Intended name i c.candidateKey) fun _ => Kept i True c.candidateKey := by
  have stable : ∀ n, (custody name config).Stable i (Kept i n c.candidateKey) :=
    fun n => kept_stable i n c.candidateKey
  have pending : CommandState.orderPending ≠ .available ∧ CommandState.orderPending ≠ .reserved := by
    decide
  have going : CommandState.orderPending.Terminal → True := fun _ => trivial
  refine .bind (quiet_kept (hasExchangeEvidence_quiet _ _)) fun evidence => ?_
  split
  · refine .bind (transition_kept hname hslot pending going) fun c' => ?_
    refine .of_forall fun w _ h => ?_
    obtain ⟨⟨hkey, hident⟩, -⟩ := h
    rw [← hkey] at hident ⊢
    refine .bind (Q := fun _ => Kept i True c'.candidateKey)
      ((recordOrder_kept hident _).conseq (fun _ _ h => h.2) (fun _ _ _ h => h) fun _ _ _ h => h)
      fun _ => ?_
    exact .done_ok ((Contract.Stable.const _).and (kept_stable i _ _)) fun _ _ h =>
      ⟨hident, h.mono False.elim⟩
  · refine .bind (prepareLiveExecution_kept _ _) fun payload => ?_
    refine .of_forall fun w _ h => ?_
    have hpayload := h.1.trans hname
    refine .bind (Q := fun _ => Kept i True c.candidateKey)
      ((quiet_kept (ensureAccountSettings_quiet _ _ _)).conseq (fun _ _ h => h.2)
        (fun _ _ _ h => h) fun _ _ _ h => h) fun _ => ?_
    refine .bind (prepareLiveExecution_kept _ _) fun sized => ?_
    refine .of_forall fun w _ h => ?_
    have hsized : ident sized = name c.candidateKey := h.1.trans hpayload
    refine .bind (Q := fun c₁ w => c₁ = { c with payload := sized } ∧ Kept i True c.candidateKey w)
      ((mark_kept hsized).conseq (fun _ _ h => h.2) (fun _ _ _ h => h) fun _ _ _ h => h)
      fun c₁ => ?_
    refine .of_forall fun w _ h => ?_
    obtain ⟨rfl, -⟩ := h
    refine .bind (Q := fun _ => Kept i True c.candidateKey)
      ((recordOrder_kept (c := { c with payload := sized }) hsized _).conseq (fun _ _ h => h.2)
        (fun _ _ _ h => h) fun _ _ _ h => h) fun _ => ?_
    refine .bind (transition_kept (c := { c with payload := sized }) hsized hslot pending going)
      fun c' => ?_
    exact .done_ok ((Contract.Stable.const _).and ((Contract.Stable.const _).and (stable _)))
      fun _ _ h => ⟨h.1.ident, hsized, h.2⟩

/-! ## The rules of a slot -/

/-- The slot works on a command, for the symbol and the side of its key. -/
structure Minds (name : String → String × String) (config : Config) (i : Slot) (c : Command)
    (w : ServiceWorld broker) : Prop where
  holds : Holds config i False c w
  ident : ident c.payload = name c.candidateKey

/-- Its order may be sent, for a payload of this symbol and this side. -/
structure Intends (name : String → String × String) (config : Config) (i : Slot) (c : Command)
    (payload : Json) (w : ServiceWorld broker) : Prop where
  holds : Holds config i True c w
  ident : Custody.ident c.payload = name c.candidateKey
  sized : Custody.ident payload = name c.candidateKey
  flat : (exposure w c.candidateKey).Flat

/-- Nothing is open for it. -/
structure Leaves (name : String → String × String) (config : Config) (i : Slot) (c : Command)
    (w : ServiceWorld broker) : Prop extends Minds name config i c w where
  flat : (exposure w c.candidateKey).Flat

theorem kept_of_holds {m : Prop} (h : Holds config i m c w)
    (hflat : n → (exposure w c.candidateKey).Flat) : Kept i n c.candidateKey w := by
  obtain ⟨d, hd, hstate, hslot, -⟩ := h.copy
  exact ⟨⟨d, hd, hslot.trans h.busy.1, hstate ▸ h.busy.2.ne_available⟩, hflat⟩

theorem Minds.kept (h : Minds name config i c w) : Kept i False c.candidateKey w :=
  kept_of_holds h.holds False.elim

theorem Leaves.kept (h : Leaves name config i c w) : Kept i True c.candidateKey w :=
  kept_of_holds h.holds fun _ => h.flat

/-- What is not in custody is not open. -/
theorem Minds.leaves (hw : (custody name config).inv w) (h : Minds name config i c w)
    (hc : c.state = .reserved) : Leaves name config i c w := by
  refine ⟨h, fun symbol side hheld => ?_⟩
  obtain ⟨-, j, d, hd, -, hstate⟩ := hw.2.2 _ symbol side hheld
  obtain ⟨d', hd', hstate', -⟩ := h.holds.copy
  obtain rfl := Option.some.inj (hd.symm.trans hd')
  exact hstate (hstate'.trans hc)

theorem Intends.pending {payload : Json} (h : Intends name config i c payload w)
    (hc : c.state = .orderPending) : Pending i c.candidateKey w := by
  obtain ⟨d, hd, hstate, hslot, -⟩ := h.holds.copy
  refine ⟨⟨d, hd, ⟨hslot.trans h.holds.busy.1, hstate ▸ h.holds.busy.2⟩, ?_⟩, h.flat⟩
  rw [hstate, hc]
  decide

theorem holds_spared (m : Prop) (c : Command) :
    (custody name config).Stable i (Holds config i m c) := fun w w' hr hi h =>
  holds_stable (orderly name config) i m c w w' hr.rely hi.1 h

theorem minds_stable (c : Command) : (custody name config).Stable i (Minds name config i c) :=
  fun w w' hr hi h => ⟨holds_spared False c w w' hr hi h.holds, h.ident⟩

theorem leaves_stable (c : Command) : (custody name config).Stable i (Leaves name config i c) :=
  fun w w' hr hi h => ⟨minds_stable c w w' hr hi h.toMinds,
    (kept_stable i True _ w w' hr hi h.kept).flat trivial⟩

theorem intends_stable (c : Command) (payload : Json) :
    (custody name config).Stable i (Intends name config i c payload) := fun w w' hr hi h =>
  ⟨holds_spared True c w w' hr hi h.holds, h.ident, h.sized,
    (kept_stable i True _ w w' hr hi (kept_of_holds h.holds fun _ => h.flat)).flat trivial⟩

/-- What the stores tell of a program, with what they are granted for. -/
theorem combine {P P' : ServiceWorld broker → Prop} {p : Proc α}
    {Q Q' : α → ServiceWorld broker → Prop} {E E' : JsError → ServiceWorld broker → Prop}
    (h : Triple (service broker config) (Orderly name) (stores name config) i P p Q E)
    (h' : Granted name config i P' p Q' E') :
    Triple (service broker config) (Orderly name) (custody name config) i (fun w => P w ∧ P' w) p
      (fun a w => Q a w ∧ Q' a w) fun e w => E e w ∧ E' e w :=
  h.granted (adds name config i) h'

theorem record_minds (c : Command) (status : String) :
    Triple (service broker config) (Orderly name) (custody name config) i (Minds name config i c)
      (recordOrder c status) (fun _ => Minds name config i c) fun _ => Minds name config i c := by
  refine .of_forall fun w _ h => ?_
  have hident := h.ident
  exact (combine (record_holds (orderly name config) i False c status
    (F := fun _ => Holds config i False c)) (recordOrder_kept hident status)).conseq
      (fun _ _ h => ⟨h.holds, h.kept⟩) (fun _ _ _ h => ⟨h.1, hident⟩) fun _ _ _ h => ⟨h.1, hident⟩

theorem record_leaves (c : Command) (status : String) :
    Triple (service broker config) (Orderly name) (custody name config) i (Leaves name config i c)
      (recordOrder c status) (fun _ => Leaves name config i c) fun _ => Leaves name config i c := by
  refine .of_forall fun w _ h => ?_
  have hident := h.ident
  exact (combine (record_holds (orderly name config) i False c status
    (F := fun _ => Holds config i False c)) (recordOrder_kept (n := True) hident status)).conseq
      (fun _ _ h => ⟨h.holds, h.kept⟩) (fun _ _ _ h => ⟨⟨h.1, hident⟩, h.2.flat trivial⟩)
      fun _ _ _ h => ⟨⟨h.1, hident⟩, h.2.flat trivial⟩

/-- A transition to where the command is still worked on. -/
theorem advance_minds (c : Command) (s : CommandState) (hs : s ∈ CommandState.TRANSITIONS c.state)
    (ha : s.Active) :
    Triple (service broker config) (Orderly name) (custody name config) i (Minds name config i c)
      (transition c s)
      (fun c' w => c'.state = s ∧ c'.candidateKey = c.candidateKey ∧ Minds name config i c' w)
      fun _ _ => True := by
  refine .of_forall fun w _ h => ?_
  have hne := CommandState.ne_of_mem_transitions hs
  refine (combine (transition_holds (orderly name config) i False c s hne
    (F := fun _ _ => True)) (transition_kept (n := False) h.ident h.holds.busy.1 hne
      (fun ht => ha.not_terminal ht) (F := fun _ _ => True))).conseq
        (fun _ _ h => ⟨h.holds, h.kept⟩) (fun c' _ _ h' => ?_) fun _ _ _ _ => trivial
  obtain ⟨⟨hstate, hkey, hholds⟩, hbelongs, -⟩ := h'
  exact ⟨hstate, hkey, hholds ha, hkey ▸ hbelongs.ident⟩

/-- A transition of a command for which nothing is open. -/
theorem transition_leaves (c : Command) (s : CommandState)
    (hs : s ∈ CommandState.TRANSITIONS c.state) :
    Triple (service broker config) (Orderly name) (custody name config) i (Leaves name config i c)
      (transition c s) (fun c' w => c'.state = s ∧ (s.Active → Leaves name config i c' w))
      fun _ _ => True := by
  refine .of_forall fun w _ h => ?_
  have hne := CommandState.ne_of_mem_transitions hs
  refine (combine (transition_holds (orderly name config) i False c s hne
    (F := fun _ _ => True)) (transition_kept (n := True) h.ident h.holds.busy.1 hne
      (fun _ => trivial) (F := fun _ _ => True))).conseq
        (fun _ _ h => ⟨h.holds, h.kept⟩) (fun c' _ _ h' => ?_) fun _ _ _ _ => trivial
  obtain ⟨⟨hstate, hkey, hholds⟩, hbelongs, hkept⟩ := h'
  exact ⟨hstate, fun ha => ⟨⟨hholds ha, hkey ▸ hbelongs.ident⟩, hkey ▸ hkept.flat trivial⟩⟩

/-- A request that opens nothing. -/
theorem bybit_minds (c : Command) {o : BybitOp}
    (ho : ∀ orders, entryKeys (requested o orders) = entryKeys orders)
    (hfades : ∀ s s' a, broker.respond i o s a s' → ∀ k, (s k).Fades (s' k)) :
    Triple (service broker config) (Orderly name) (custody name config) i (Minds name config i c)
      (bybit o) (fun _ => Minds name config i c) fun _ => Minds name config i c := by
  refine .of_forall fun w _ h => ?_
  have hident := h.ident
  exact (combine (bybit_holds (orderly name config) i False c ho)
    (bybit_kept (n := False) hfades)).conseq (fun _ _ h => ⟨h.holds, h.kept⟩)
      (fun _ _ _ h => ⟨h.1, hident⟩) fun _ _ _ h => ⟨h.1, hident⟩

/-- The rules of a slot. -/
def minding (name : String → String × String) (config : Config) (i : Slot) :
    SlotRules broker config (Orderly name) (custody name config) i where
  Own := Minds name config i
  Ready := Intends name config i
  Over := Leaves name config i
  stable_own := minds_stable
  stable_ready := intends_stable
  stable_over := leaves_stable
  calm := calm name config i
  next := (combine (nextCommand_taken (orderly name config) i) nextCommand_given).conseq
    (fun _ _ h => ⟨h, h⟩) (fun _ _ _ h c hc => ⟨h.1 c hc, h.2 c hc⟩) fun _ _ _ _ => trivial
  over_of_reserved _ _ hi h hc := h.leaves hi hc
  record := record_minds
  recordOver := record_leaves
  advance := advance_minds
  closing c hs := (transition_leaves c .closing hs).conseq (fun _ _ h => h)
    (fun _ _ _ h => ⟨h.1, h.2 (by decide)⟩) fun _ _ _ h => h
  finish c s hs _ := (transition_leaves c s hs).conseq (fun _ _ h => h) (fun _ _ _ _ => trivial)
    fun _ _ _ h => h
  prepare c hc := by
    refine .of_forall fun w hi h => ?_
    have hident := h.ident
    refine (combine (prepare_holds (orderly name config) i c hc)
      (prepare_kept hident h.holds.busy.1)).conseq
        (fun _ hi h => ⟨h.holds, (h.leaves hi hc).kept⟩) (fun r _ _ h' => ?_)
        fun _ _ _ h' => ⟨h'.1, hident⟩
    rcases r with c' | ⟨c', payload⟩
    · obtain ⟨⟨hstate, hkey, hholds⟩, hident', -⟩ := h'
      exact ⟨hstate, hkey, hholds, hkey ▸ hident'⟩
    · obtain ⟨⟨hstate, hkey, hholds⟩, hident', hsized, hkept⟩ := h'
      exact ⟨hstate, hkey, hholds, hkey ▸ hident', hkey ▸ hsized, hkey ▸ hkept.flat trivial⟩
  submit c payload hc := by
    refine .of_forall fun w _ h => ?_
    have hident := h.ident
    refine (combine (submit_holds (orderly name config) i c payload hc)
      (createOrder_kept h.sized)).conseq (fun _ _ h => ⟨h.holds, h.pending hc⟩)
        (fun _ _ _ h' => ⟨h'.1, hident⟩) fun _ _ _ h' => ?_
    exact ⟨⟨h'.1, hident⟩, fun hrefused => ⟨⟨h'.1, hident⟩, h'.2.flat hrefused⟩⟩
  close c _ _ _ _ := bybit_minds c (fun _ => rfl) fun _ _ _ h => h.2
  stop c _ := bybit_minds c (fun _ => rfl) fun _ _ _ h k => h.2 ▸ .refl _
  resolved c payload _ := by
    refine .of_forall fun w _ h => ?_
    have hident := h.ident
    exact (combine ((calm_quiet (orderly name config) i).triple
      (SlotRules.waitForResolution_quiet _ _ _) (holds_stable (orderly name config) i False c))
      (waitForResolution_kept _ _)).conseq (fun _ _ h => ⟨h.holds, h.kept⟩)
        (fun _ _ _ h' => ⟨⟨h'.1, hident⟩, fun hfailed => ⟨⟨h'.1, hident⟩, h'.2.flat hfailed⟩⟩)
        fun _ _ _ h' => ⟨h'.1, hident⟩
  missing c _ := by
    refine .of_forall fun w _ h => ?_
    have hident := h.ident
    exact (combine (bybit_holds (orderly name config) i False c fun _ => rfl)
      (position_kept hident)).conseq (fun _ _ h => ⟨h.holds, h.kept⟩)
        (fun _ _ _ h' => ⟨⟨h'.1, hident⟩, fun hnone => ⟨⟨h'.1, hident⟩, h'.2.flat hnone⟩⟩)
        fun _ _ _ h' => ⟨h'.1, hident⟩

/-! ## The service -/

/-- What arrives is for the symbol and the side of its key, and opens nothing. -/
theorem arrival_keeps (hw : (custody name config).inv w)
    (he : (service broker config).env w w') (hok : Orderly name w .env w') :
    (custody name config).inv w' ∧ (∀ j, (custody name config).rely j w w') ∧
      (custody name config).step w w' := by
  obtain ⟨hinv, hrely, hstep⟩ := (verified (orderly name config)).env w w' hw.1 he hok
  have hfades : ∀ k, (exposure w k).Fades (exposure w' k) := by
    cases he with
    | exchange s _ hs => exact hs
    | _ => exact fun _ => .refl _
  refine ⟨⟨hinv, fun k c hc => ?_, fun k symbol side hheld => ?_⟩,
    fun j => ⟨hrely j, fun k _ _ _ => hfades k⟩, hstep⟩
  · exact (hok.named rfl k c hc).elim (hw.2.1 k c) id
  · obtain ⟨hname, j, d, hd, hbusy, hstate⟩ := hw.2.2 k symbol side ((hfades k).held hheld)
    exact ⟨hname, j, d, (hrely j).visible hbusy.stamped hd, hbusy, hstate⟩

theorem custody_verified (name : String → String × String) (config : Config) :
    Verified (service broker config) (Orderly name) (custody name config) (fun _ _ => True)
      fun _ _ => True where
  body i := (minding name config i).turn
  loop _ _ _ _ _ := trivial
  cut _ _ _ _ _ := trivial
  env _ _ hw he hok := arrival_keeps hw he hok

/-- Where nothing was sent. -/
def unsentService : ServiceWorld broker :=
  ⟨.started false false 1000, ⟨∅, false, [], fun _ => .unsent⟩⟩

/-- All candidates are for the same. -/
def oneName : String → String × String := fun _ => ("BTCUSDT", "Buy")

/-- It is delivered a candidate. -/
def offeredService : ServiceWorld broker :=
  ⟨(acceptDirectCandidate (Executor.exampleCommand.payload) unsentService.mem).2,
    unsentService.remote⟩

/-- The answers of an exchange that accepts every entry. -/
def matching : (o : BybitOp) → (String → Exposure) →
    Option (Except JsError o.Val × (String → Exposure))
  | .createOrder request, s => match request.orderLinkId with
    | .entry k => some (.ok (some (.str "1")), fun k' =>
        if k' = k ∧ s k = .unsent then .held request.symbol request.side else s k')
    | .management _ _ => none
  | o, s => (Executor.exampleAnswers "100" "100" [] (.bybit o)).map fun a => (a, s)

theorem matching_answers (slot : Slot) (o : BybitOp) (s : String → Exposure)
    (a : Except JsError o.Val) (s' : String → Exposure) (h : matching o s = some (a, s')) :
    broker.respond slot o s a s' := by
  cases o with
  | createOrder request =>
    rcases hlink : request.orderLinkId with k | ⟨k, action⟩
    · simp only [matching, hlink, Option.some.injEq, Prod.mk.injEq] at h
      obtain ⟨rfl, rfl⟩ := h
      refine ⟨fun _ _ => trivial, ?_⟩
      simp only [Trades, hlink]
      refine .inr ⟨⟨fun k' hk' => if_neg fun hk => hk' hk.1, ?_⟩, fun _ _ he => by cases he⟩
      by_cases hs : s k = .unsent
      · exact .inl ⟨hs, .inl (if_pos ⟨rfl, hs⟩)⟩
      · exact .inr ⟨hs, if_neg fun hk => hs hk.2⟩
    · simp [matching, hlink] at h
  | position symbol => cases h
  | setMarginMode => cases h
  | setTradingStop request => cases h
  | _ =>
    -- what is read is empty, or not about the candidates
    obtain ⟨rfl, rfl⟩ := Prod.mk.inj (Option.some.inj h)
    refine ⟨fun v hv => ?_, rfl⟩
    obtain rfl := Except.ok.inj hv
    first
    | trivial
    | rfl
    | (rename_i linkId; cases linkId <;> simp [Truthful])

/-- The next step of slot 1. -/
def matchingMove : Move Slot Memory (Remote broker) JsError Op.Val :=
  .run slot1 (answering (fun _ => .lost "no database") matching)

theorem offered_orderly : Orderly oneName unsentService .env offeredService where
  disjoint := disjoint_of_noRows rfl
  named _ k c hc := by
    have hstored : ∀ c ∈ offeredService.mem.direct.commands, ident c.payload = ("BTCUSDT", "Buy") := by
      decide +kernel
    rcases hc with hc | hc
    · have hkey : c.candidateKey = k := CommandMap.candidateKey_of_get? hc
      exact .inr (hstored c (CommandMap.mem_commands.2 (hkey ▸ hc)))
    · cases hc

end Custody

end IntradayBot.Node
