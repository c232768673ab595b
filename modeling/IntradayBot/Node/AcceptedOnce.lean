import IntradayBot.Coop.Grant
import IntradayBot.Coop.Lives
import IntradayBot.Node.Adoption
import IntradayBot.Node.OneOwner
import IntradayBot.Node.Unopened

/-!
# An entry is accepted once

The service may be stopped at any point and started again. What it had in memory is lost then, and
so is what it knew of the orders that it sent: a candidate may be delivered again, or its row be
adopted as it was before its order. `execute` therefore looks for the order on the exchange before
it sends one.

The exchange shows the orders that it accepted, among the current ones while they are live and in
the history once they have ended (`ledger`). An order that a slot does not find was hence not
accepted before, and while the slot goes on to send it nobody else does: in all lives of the
service together, the entry order of a candidate is accepted at most once.
-/

namespace IntradayBot.Node

open Coop HybridRepository

namespace Acceptance

/-! ## The exchange -/

/-- The entry orders that were accepted for a candidate. -/
structure Accepted where
  live : ℕ
  ended : ℕ
  deriving DecidableEq

namespace Accepted

/-- How many there are. -/
def total (s : Accepted) : ℕ := s.live + s.ended

/-- What happens to them without an order: they end. -/
structure Ages (s s' : Accepted) : Prop where
  total : s'.total = s.total
  ended : s.ended ≤ s'.ended

variable {s s' s'' : Accepted}

theorem Ages.refl (s : Accepted) : s.Ages s := ⟨rfl, le_rfl⟩

theorem Ages.trans (h : s.Ages s') (h' : s'.Ages s'') : s.Ages s'' :=
  ⟨h'.total.trans h.total, h.ended.trans h'.ended⟩

theorem Ages.live (h : s.Ages s') (hs : s.live = 0) : s'.live = 0 := by
  have htotal := h.total
  have hended := h.ended
  simp only [Accepted.total] at htotal
  omega

end Accepted

/-- An order that was accepted is found. -/
def Shows (s : String → Accepted) : (o : BybitOp) → o.Val → Prop
  | .realtimeOrder _ (.entry k), rows => 0 < (s k).live → rows ≠ []
  | .orderHistory _ (.entry k), rows => 0 < (s k).ended → rows ≠ []
  | _, _ => True

/-- An order may be accepted, whatever is answered. -/
def Takes (request : OrderRequest) (s s' : String → Accepted) : Prop :=
  s' = s ∨ request.reduceOnly = false ∧ ∃ k, request.orderLinkId = .entry k ∧
    s' = Function.update s k ⟨(s k).live + 1, (s k).ended⟩

/-- The exchange: the entry orders that it accepted for each candidate. -/
def ledger : ExchangeModel where
  State := String → Accepted
  respond _ o s a s' := (∀ v, a = .ok v → Shows s o v) ∧
    match o with
    | .createOrder request => Takes request s s'
    | _ => s' = s
  step s s' := ∀ k, (s k).Ages (s' k)

/-- The entry orders that were accepted for a candidate. -/
abbrev accepted (w : ServiceWorld ledger) (k : String) : Accepted := w.remote.exchange k

/-! ## The contract -/

/-- The contract of the stores. -/
abbrev stores (config : Config) : Contract Slot Memory (Remote ledger) :=
  contract (disjointOnly ledger config)

/-- What was requested stays requested, and what is accepted is requested. -/
structure Accounted (w w' : ServiceWorld ledger) : Prop where
  sent : ∀ k, Sent w k → Sent w' k
  ages : ∀ k, Sent w' k ∨ (accepted w k).Ages (accepted w' k)

theorem Accounted.trans {w w' w'' : ServiceWorld ledger} (h : Accounted w w')
    (h' : Accounted w' w'') : Accounted w w'' where
  sent k hk := h'.sent k (h.sent k hk)
  ages k := by
    rcases h'.ages k with hk | hk
    · exact .inl hk
    · exact (h.ages k).imp (h'.sent k) fun hages => hages.trans hk

/-- The contract of the stores and the exchange. -/
def once (config : Config) : Contract Slot Memory (Remote ledger) where
  inv w := (stores config).inv w ∧ ∀ k, (accepted w k).total ≤ 1
  rely i w w' := Rely i w w' ∧ Accounted w w'
  step := Forward
  rely_refl i w := ⟨.refl i w, fun _ h => h, fun _ => .inr (.refl _)⟩
  rely_trans _ _ _ _ h h' := ⟨h.1.trans h'.1, h.2.trans h'.2⟩
  step_refl := Forward.refl

theorem adds (config : Config) (i : Slot) : (stores config).Adds (once config) i :=
  ⟨fun _ h => h.1, fun _ _ h => h.1⟩

variable {config : Config} {i : Slot} {w w' : ServiceWorld ledger} {key : String} {c : Command}
  {α : Type}

/-- A step after which no more is accepted. -/
theorem keeps_of_ages (hw : (once config).inv w) (hk : (stores config).Keeps i w w')
    (h : Accounted w w') (hages : ∀ k, (accepted w k).Ages (accepted w' k)) :
    (once config).Keeps i w w' :=
  ⟨⟨hk.inv, fun k => (hages k).total ▸ hw.2 k⟩, fun j hj => ⟨hk.rely j hj, h⟩, hk.step⟩

theorem accounted_of_ages (hsent : ∀ k, Sent w k → Sent w' k)
    (hages : ∀ k, (accepted w k).Ages (accepted w' k)) : Accounted w w' :=
  ⟨hsent, fun k => .inr (hages k)⟩

/-- What a request that opens no entry leaves. -/
theorem respond_unopened {o : Op} (ho : Unopened o) {a : Except JsError o.Val} {r : Remote ledger}
    (h : respond i o w a r) : r.exchange = w.remote.exchange ∧
      ∀ k, Sent w k → Sent (⟨w.mem, r⟩ : ServiceWorld ledger) k := by
  cases o with
  | db o =>
    obtain ⟨out, -, rfl⟩ := h
    exact ⟨rfl, fun _ hk => hk⟩
  | bybit o =>
    obtain ⟨s, hs, rfl⟩ := h
    cases o with
    | createOrder request =>
      refine ⟨?_, fun k hk => ?_⟩
      · rcases hs.2 with rfl | ⟨hopens, -⟩
        · rfl
        · exact absurd (hopens.symm.trans ho) Bool.false_ne_true
      · simp only [Sent, entryKeys, requested, List.filterMap_cons] at hk ⊢
        split
        · exact hk
        · exact List.mem_cons_of_mem _ hk
    | _ => exact ⟨hs.2, fun _ hk => hk⟩
  | toss => exact ⟨h.2 ▸ rfl, fun _ hk => h.2 ▸ hk⟩
  | polls => exact ⟨h.2 ▸ rfl, fun _ hk => h.2 ▸ hk⟩
  | held slot => exact ⟨h.2 ▸ rfl, fun _ hk => h.2 ▸ hk⟩

theorem accounted_of_respond {o : Op} (ho : Unopened o) {a : Except JsError o.Val}
    {r : Remote ledger} (h : respond i o w a r) :
    (∀ k, (accepted w k).Ages (accepted ⟨w.mem, r⟩ k)) ∧ Accounted w ⟨w.mem, r⟩ := by
  obtain ⟨hexchange, hsent⟩ := respond_unopened ho h
  have hages : ∀ k, (accepted w k).Ages (accepted ⟨w.mem, r⟩ k) := fun k => by
    rw [accepted, accepted, hexchange]
    exact .refl _
  exact ⟨hages, accounted_of_ages hsent hages⟩

theorem unopened_of_quietOp {o : Op} (ho : QuietOp o) : Unopened o := by
  rcases o with _ | o | _ | _ | _
  · trivial
  · cases o with
    | createOrder request => exact ho.elim
    | _ => trivial
  · trivial
  · trivial
  · trivial

theorem calm (config : Config) (i : Slot) :
    Calm (service ledger config) Disjoint (once config) i Quiet QuietOp where
  sync f w hf hw hok := by
    obtain ⟨hk, hr⟩ := (calm_quiet (disjointOnly ledger config) i).sync f w hf hw.1 hok
    have h : Accounted w ⟨f w.mem, w.remote⟩ := ⟨fun _ hk => hk, fun _ => .inr (.refl _)⟩
    exact ⟨keeps_of_ages hw hk h fun _ => .refl _, hr, h⟩
  call o w a r ho hw ha hok := by
    obtain ⟨hk, hr⟩ := (calm_quiet (disjointOnly ledger config) i).call o w a r ho hw.1 ha hok
    obtain ⟨hages, h⟩ := accounted_of_respond (unopened_of_quietOp ho) ha
    exact ⟨keeps_of_ages hw hk h hages, hr, h⟩

/-! ## What is sent -/

/-- The steps of the slot are known to keep the stores. -/
abbrev granting (config : Config) : Condition Slot Memory (Remote ledger) JsError Op.Val :=
  Granting Disjoint (stores config)

/-- What is proved where the stores are known to be kept. -/
abbrev Granted (config : Config) (i : Slot) (P : ServiceWorld ledger → Prop) (p : Proc α)
    (Q : α → ServiceWorld ledger → Prop) (E : JsError → ServiceWorld ledger → Prop) : Prop :=
  Triple (service ledger config) (granting config) (once config) i P p Q E

/-- What nobody who accounts for his orders spoils. -/
def Lasting (P : ServiceWorld ledger → Prop) : Prop := ∀ w w', Accounted w w' → P w → P w'

theorem Lasting.stable {P : ServiceWorld ledger → Prop} (h : Lasting P) :
    (once config).Stable i P := fun w w' hr _ => h w w' hr.2

theorem Lasting.imp {P : ServiceWorld ledger → Prop} (h : Lasting P) (p : Prop) :
    Lasting fun w => p → P w := fun w w' ha hP hp => h w w' ha (hP hp)

theorem lasting_true : Lasting fun _ => True := fun _ _ _ _ => trivial

/-- A program that opens no entry keeps what lasts. -/
theorem unopened_granted {P : ServiceWorld ledger → Prop} (hP : Lasting P) {p : Proc α}
    (hp : p.All (fun _ => True) Unopened) :
    Granted config i P p (fun _ => P) fun _ => P := by
  refine .all hp hP.stable (fun f w _ hw h hok => ?_) fun o w a r ho hw h ha hok => ?_
  · have haccounted : Accounted w ⟨f w.mem, w.remote⟩ := ⟨fun _ hk => hk, fun _ => .inr (.refl _)⟩
    exact ⟨keeps_of_ages hw (hok.2 i rfl) haccounted fun _ => .refl _, hP _ _ haccounted h⟩
  · obtain ⟨hages, haccounted⟩ := accounted_of_respond ho ha
    exact ⟨keeps_of_ages hw (hok.2 i rfl) haccounted hages, hP _ _ haccounted h⟩

/-- No entry order of the candidate is live, before one is requested. -/
def NoneLive (key : String) (w : ServiceWorld ledger) : Prop :=
  Sent w key ∨ (accepted w key).live = 0

/-- None was accepted, before one is requested. -/
def Clear (key : String) (w : ServiceWorld ledger) : Prop :=
  Sent w key ∨ (accepted w key).total = 0

theorem lasting_noneLive (key : String) : Lasting (NoneLive key) := fun w w' ha h => by
  rcases ha.ages key with hsent | hages
  · exact .inl hsent
  · exact h.imp (ha.sent key) hages.live

theorem lasting_clear (key : String) : Lasting (Clear key) := fun w w' ha h => by
  rcases ha.ages key with hsent | hages
  · exact .inl hsent
  · exact h.imp (ha.sent key) hages.total.trans

/-- What is read of the exchange shows the orders that were accepted. -/
theorem looked {o : BybitOp} (ho : QuietOp (.bybit o)) {P : ServiceWorld ledger → Prop}
    (hP : Lasting P) {Q : o.Val → ServiceWorld ledger → Prop} (hQ : ∀ v, Lasting (Q v))
    (h : ∀ v w, P w → Shows w.remote.exchange o v → Q v w) :
    Granted config i P (bybit o) Q fun _ _ => True := by
  refine .request hP.stable (fun v => (hQ v).stable) (fun _ => lasting_true.stable)
    fun w a r hw hPw ha hok => ?_
  have hunopened := unopened_of_quietOp ho
  obtain ⟨hages, haccounted⟩ := accounted_of_respond hunopened ha
  refine ⟨keeps_of_ages hw (hok.2 i rfl) haccounted hages, ?_⟩
  obtain ⟨hexchange, -⟩ := respond_unopened hunopened ha
  obtain ⟨s, hs, rfl⟩ := ha
  rcases a with e | v
  · trivial
  · obtain rfl : s = w.remote.exchange := hexchange
    exact h v _ (hP _ _ haccounted hPw) (hs.1 v rfl)

theorem findOrder_clear (symbol : String) :
    Granted config i (fun _ => True) (BybitClient.findOrder symbol (.entry key))
      (fun order w => order = none → Clear key w) fun _ _ => True := by
  refine .bind (Q := fun rows w => rows = [] → NoneLive key w)
    (looked (o := .realtimeOrder symbol (.entry key)) trivial lasting_true
      (fun _ => (lasting_noneLive key).imp _) fun rows w _ hshows hnone => ?_) fun rows => ?_
  · exact .inr (by_contra fun hlive => hshows (Nat.pos_of_ne_zero hlive) hnone)
  · rcases rows with _ | ⟨current, rows⟩
    · refine .bind (Q := fun rows w => rows = [] → Clear key w)
        ((looked (o := .orderHistory symbol (.entry key)) trivial (lasting_noneLive key)
          (fun _ => (lasting_clear key).imp _) fun rows w hlive hshows hnone => ?_).conseq
          (fun _ _ h => h rfl) (fun _ _ _ h => h) fun _ _ _ h => h) fun rows => ?_
      · refine hlive.imp id fun hlive => ?_
        have hended : (accepted w key).ended = 0 :=
          by_contra fun hended => hshows (Nat.pos_of_ne_zero hended) hnone
        rw [Accepted.total, hlive, hended]
      · exact .done_ok ((lasting_clear key).imp _).stable fun _ _ h hnone =>
          h (List.head?_eq_none_iff.1 hnone)
    · exact .done_ok ((lasting_clear key).imp _).stable fun _ _ _ hnone =>
        (Option.some_ne_none _ hnone).elim

theorem hasExchangeEvidence_clear (symbol : String) :
    Granted config i (fun _ => True) (Executor.hasExchangeEvidence symbol (.entry key))
      (fun evidence w => evidence = false → Clear key w) fun _ _ => True := by
  have hquiet : (bybit (.executions symbol (.entry key))).All Quiet QuietOp := .request trivial
  refine .bind (Q := fun (seen : Option OrderRow × List ExecutionRow) w =>
    (seen.1 = none → Clear key w) ∧ True)
    ((calm config i).granting.par (show QuietOp .toss from trivial)
      (SlotRules.findOrder_quiet _ _) hquiet (fun _ => ((lasting_clear key).imp _).stable)
      (fun _ => lasting_true.stable) (fun _ => lasting_true.stable) (findOrder_clear symbol)
      ((calm config i).granting.triple hquiet lasting_true.stable)) fun (order, executions) => ?_
  refine .done_ok ((lasting_clear key).imp _).stable fun _ _ h hevidence => h.1 ?_
  have hsome := (Bool.or_eq_false_iff.1 hevidence).1
  exact Option.isNone_iff_eq_none.1 (Option.isSome_eq_false_iff.1 hsome)

/-! ## Before the order -/

theorem prepareLiveExecution_unopened (payload : Json) (linkId : LinkId) :
    (Executor.prepareLiveExecution config c payload linkId).All (fun _ => True) Unopened :=
  unopened_of_quiet (prepareLiveExecution_quiet _ _ _ _)

theorem ensureAccountSettings_unopened (symbol : String) (leverage : Field) :
    (Executor.ensureAccountSettings config symbol leverage).All (fun _ => True) Unopened :=
  unopened_of_quiet (ensureAccountSettings_quiet _ _ _)

/-- What is known of a command whose order is to be sent. -/
def Cleared (key : String) (pending : Executor.Pending) (w : ServiceWorld ledger) : Prop :=
  match pending with
  | .recovered _ => True
  | .sized _ _ => Clear key w

theorem prepare_cleared (c : Command) :
    Granted config i (fun _ => True)
      (Executor.prepare config c (Executor.orderLinkId c.candidateKey))
      (Cleared c.candidateKey) fun _ _ => True := by
  have stable : (once config).Stable i (Clear c.candidateKey) := (lasting_clear _).stable
  have keeps : ∀ {α : Type} {p : Proc α}, p.All (fun _ => True) Unopened →
      Granted config i (Clear c.candidateKey) p (fun _ => Clear c.candidateKey) fun _ _ => True :=
    fun hp => (unopened_granted (lasting_clear _) hp).conseq (fun _ _ h => h) (fun _ _ _ h => h)
      fun _ _ _ _ => trivial
  refine .bind (hasExchangeEvidence_clear _) fun evidence => ?_
  split
  · refine .conseq (P := fun _ => True) ?_ (fun _ _ _ => trivial) (fun _ _ _ h => h)
      fun _ _ _ h => h
    refine .bind (unopened_granted lasting_true (unopened_transition _ _)) fun c' =>
      .bind (unopened_granted lasting_true (unopened_recordOrder _ _)) fun _ => ?_
    exact .done_ok lasting_true.stable fun _ _ h => h
  · rename_i hevidence
    -- nothing was found: until the order is sent, that remains so
    refine .conseq (P := Clear c.candidateKey) ?_ (fun _ _ h => h (Bool.eq_false_iff.2 hevidence))
      (fun _ _ _ h => h) fun _ _ _ h => h
    refine .bind (keeps (prepareLiveExecution_unopened _ _)) fun payload =>
      .bind (keeps (ensureAccountSettings_unopened _ _)) fun _ =>
      .bind (keeps (prepareLiveExecution_unopened _ _)) fun sized =>
      .bind (keeps (.atomically trivial)) fun c₁ =>
      .bind (keeps (unopened_recordOrder _ _)) fun _ =>
      .bind (keeps (unopened_transition _ _)) fun c' => ?_
    exact .done_ok stable fun _ _ h => h

/-- The entry order of a candidate for which none was accepted. -/
theorem createOrder_once (payload : Json) :
    Granted config i (Clear key)
      (bybit (.createOrder (Executor.entryOrder payload (Executor.orderLinkId key))))
      (fun _ _ => True) fun _ _ => True := by
  refine .request (lasting_clear key).stable (fun _ => lasting_true.stable)
    (fun _ => lasting_true.stable) fun w a r hw h ha hok => ?_
  have hk := hok.2 i rfl
  obtain ⟨s, ⟨-, hs⟩, rfl⟩ := ha
  refine ⟨?_, by cases a <;> trivial⟩
  have hkeys : entryKeys (requested (.createOrder (Executor.entryOrder payload
      (Executor.orderLinkId key))) w.remote.orders) = key :: entryKeys w.remote.orders := rfl
  -- the request is the first for the candidate in this life
  have honce := hk.inv.exclusive.once
  rw [hkeys, List.nodup_cons] at honce
  have hzero : (accepted w key).total = 0 := h.resolve_left honce.1
  have hsent : ∀ k, Sent w k → Sent (⟨w.mem, { w.remote with
      exchange := s
      orders := requested (.createOrder (Executor.entryOrder payload
        (Executor.orderLinkId key))) w.remote.orders }⟩ : ServiceWorld ledger) k := fun k hk => by
    rw [Sent, hkeys]
    exact List.mem_cons_of_mem _ hk
  rcases hs with rfl | ⟨-, k, hlink, rfl⟩
  · exact keeps_of_ages hw hk (accounted_of_ages hsent fun _ => .refl _) fun _ => .refl _
  · obtain rfl : key = k := by
      injection hlink
    have hself := Function.update_self key
      (⟨(accepted w key).live + 1, (accepted w key).ended⟩ : Accepted) (accepted w)
    have hothers := fun k' (hk' : k' ≠ key) => Function.update_of_ne hk'
      (⟨(accepted w key).live + 1, (accepted w key).ended⟩ : Accepted) (accepted w)
    refine ⟨⟨hk.inv, fun k' => ?_⟩, fun j hj => ⟨hk.rely j hj, hsent, fun k' => ?_⟩, hk.step⟩
    · by_cases hkk : k' = key
      · subst hkk
        change (Function.update (accepted w) k' _ k').total ≤ 1
        rw [hself]
        simp only [Accepted.total] at hzero ⊢
        omega
      · change (Function.update (accepted w) key _ k').total ≤ 1
        rw [hothers k' hkk]
        exact hw.2 k'
    · by_cases hkk : k' = key
      · left
        rw [Sent, hkeys, hkk]
        exact List.mem_cons_self
      · right
        change (accepted w k').Ages (Function.update (accepted w) key _ k')
        rw [hothers k' hkk]
        exact .refl _

/-! ## The rules of a slot -/

/-- The slot works on a command whose order may be sent. -/
def Ready (config : Config) (i : Slot) (c : Command) (w : ServiceWorld ledger) : Prop :=
  Holds config i True c w ∧ Clear c.candidateKey w

theorem holds_kept (n : Prop) (c : Command) : (once config).Stable i (Holds config i n c) :=
  fun w w' hr hi h => holds_stable (disjointOnly ledger config) i n c w w' hr.1 hi.1 h

/-- What is proved of a program that opens no entry stays proved. -/
theorem combine {P : ServiceWorld ledger → Prop} {p : Proc α} {Q : α → ServiceWorld ledger → Prop}
    {E : JsError → ServiceWorld ledger → Prop}
    (h : Triple (service ledger config) Disjoint (stores config) i P p Q E)
    (hp : p.All (fun _ => True) Unopened) :
    Triple (service ledger config) Disjoint (once config) i P p Q E :=
  (h.granted (adds config i) (unopened_granted lasting_true hp)).conseq
    (fun _ _ h => ⟨h, trivial⟩) (fun _ _ _ h => h.1) fun _ _ _ h => h.1

/-- The rules of a slot that sends an order only where none was accepted. -/
def accounting (config : Config) (i : Slot) :
    SlotRules ledger config Disjoint (once config) i where
  Own := Holds config i False
  Ready c _ := Ready config i c
  Over := Holds config i False
  stable_own := holds_kept False
  stable_ready c _ := (holds_kept True c).and (lasting_clear _).stable
  stable_over := holds_kept False
  calm := calm config i
  next := combine (slotRules (disjointOnly ledger config) i).next (unopened_nextCommand config i)
  over_of_reserved _ _ _ h _ := h
  record c status := combine ((slotRules (disjointOnly ledger config) i).record c status)
    (unopened_recordOrder c status)
  recordOver c status := combine ((slotRules (disjointOnly ledger config) i).recordOver c status)
    (unopened_recordOrder c status)
  advance c s hs ha := combine ((slotRules (disjointOnly ledger config) i).advance c s hs ha)
    (unopened_transition c s)
  closing c hs := combine ((slotRules (disjointOnly ledger config) i).closing c hs)
    (unopened_transition c .closing)
  finish c s hs ht := combine ((slotRules (disjointOnly ledger config) i).finish c s hs ht)
    (unopened_transition c s)
  prepare c hc := by
    refine ((prepare_holds (disjointOnly ledger config) i c hc).granted (adds config i)
      (prepare_cleared c)).conseq (fun _ _ h => ⟨h, trivial⟩) (fun r _ _ h => ?_)
        fun _ _ _ h => h.1
    rcases r with c' | ⟨c', payload⟩
    · exact h.1
    · obtain ⟨⟨hstate, hkey, hholds⟩, hclear⟩ := h
      exact ⟨hstate, hkey, hholds, hkey ▸ hclear⟩
  submit c payload hc := ((submit_holds (disjointOnly ledger config) i c payload hc).granted
    (adds config i) (createOrder_once payload)).conseq (fun _ _ h => h) (fun _ _ _ h => h.1)
      fun _ _ _ h => ⟨h.1, fun _ => h.1⟩
  close c side position action qty := combine
    ((slotRules (disjointOnly ledger config) i).close c side position action qty) (.request rfl)
  stop c request := combine ((slotRules (disjointOnly ledger config) i).stop c request)
    (.request trivial)
  resolved c payload hc := combine
    ((slotRules (disjointOnly ledger config) i).resolved c payload hc)
    (unopened_of_quiet (SlotRules.waitForResolution_quiet _ _ _))
  missing c hc := combine ((slotRules (disjointOnly ledger config) i).missing c hc)
    (.request trivial)

/-! ## The service and its restarts -/

theorem arrival_keeps (hw : (once config).inv w) (he : (service ledger config).env w w')
    (hok : Disjoint w .env w') :
    (once config).inv w' ∧ (∀ j, (once config).rely j w w') ∧ (once config).step w w' := by
  obtain ⟨hinv, hrely, hstep⟩ := (verified (disjointOnly ledger config)).env w w' hw.1 he hok
  have hages : ∀ k, (accepted w k).Ages (accepted w' k) := by
    cases he with
    | exchange s _ hs => exact hs
    | _ => exact fun _ => .refl _
  have horders : w'.remote.orders = w.remote.orders := by cases he <;> rfl
  have hsent : ∀ k, Sent w k → Sent w' k := fun k h => by rwa [Sent, horders]
  exact ⟨⟨hinv, fun k => (hages k).total ▸ hw.2 k⟩,
    fun j => ⟨hrely j, accounted_of_ages hsent hages⟩, hstep⟩

theorem once_verified (config : Config) :
    Verified (service ledger config) Disjoint (once config) (fun _ _ => True)
      fun _ _ => True where
  body i := (accounting config i).turn
  loop _ _ _ _ _ := trivial
  cut _ _ _ _ _ := trivial
  env _ _ hw he hok := arrival_keeps hw he hok

/-- The service starts again: its memory is lost, the active rows may be adopted, and orders may
    have ended meanwhile. -/
structure Restarts (config : Config) (w w' : ServiceWorld ledger) : Prop where
  starts : Starts w'
  tables : w'.remote.tables = w.remote.tables ∨ ∃ now,
    w'.remote.tables = (w.remote.tables.adoptActiveCommands config.ownerId now).2
  exchange : ∀ k, (accepted w k).Ages (accepted w' k)

/-- A service that starts anew. -/
def restarted (r : Remote ledger) : ServiceWorld ledger :=
  ⟨.started false false 1000, { r with orders := [] }⟩

/-- It is delivered a candidate. -/
def offeredAgain (r : Remote ledger) : ServiceWorld ledger :=
  ⟨(acceptDirectCandidate Executor.exampleCommand.payload (restarted r).mem).2,
    (restarted r).remote⟩

/-- The orders shown of a candidate, where there are some. -/
def shownRows (k : String) (n : ℕ) : List OrderRow :=
  if n = 0 then [] else [⟨some (.entry k), some (.str "New"), none, none, none⟩]

/-- The answers of an exchange that accepts every entry. -/
def accepting : (o : BybitOp) → (String → Accepted) →
    Option (Except JsError o.Val × (String → Accepted))
  | .createOrder request, s => match request.orderLinkId with
    | .entry k => if request.reduceOnly then none else
      some (.ok (some (.str "1")), Function.update s k ⟨(s k).live + 1, (s k).ended⟩)
    | .management _ _ => none
  | .realtimeOrder _ (.entry k), s => some (.ok (shownRows k (s k).live), s)
  | .orderHistory _ (.entry k), s => some (.ok (shownRows k (s k).ended), s)
  | o, s => (Executor.exampleAnswers "100" "100" [] (.bybit o)).map fun a => (a, s)

theorem shownRows_ne_nil {k : String} {n : ℕ} (h : 0 < n) : shownRows k n ≠ [] := by
  simp [shownRows, h.ne']

theorem accepting_answers (slot : Slot) (o : BybitOp) (s : String → Accepted)
    (a : Except JsError o.Val) (s' : String → Accepted) (h : accepting o s = some (a, s')) :
    ledger.respond slot o s a s' := by
  cases o with
  | createOrder request =>
    rcases hlink : request.orderLinkId with k | ⟨k, action⟩
    · simp only [accepting, hlink] at h
      obtain ⟨hopens, h⟩ := Option.ite_none_left_eq_some.1 h
      obtain ⟨rfl, rfl⟩ := Prod.mk.inj (Option.some.inj h)
      exact ⟨fun _ _ => trivial, .inr ⟨by simpa using hopens, k, hlink, rfl⟩⟩
    · simp [accepting, hlink] at h
  | realtimeOrder symbol linkId =>
    cases linkId <;> obtain ⟨rfl, rfl⟩ := Prod.mk.inj (Option.some.inj h)
    · exact ⟨fun v hv => Except.ok.inj hv ▸ shownRows_ne_nil, rfl⟩
    · exact ⟨fun _ _ => trivial, rfl⟩
  | orderHistory symbol linkId =>
    cases linkId <;> obtain ⟨rfl, rfl⟩ := Prod.mk.inj (Option.some.inj h)
    · exact ⟨fun v hv => Except.ok.inj hv ▸ shownRows_ne_nil, rfl⟩
    · exact ⟨fun _ _ => trivial, rfl⟩
  | position symbol => cases h
  | setMarginMode => cases h
  | setTradingStop request => cases h
  | _ =>
    obtain ⟨rfl, rfl⟩ := Prod.mk.inj (Option.some.inj h)
    exact ⟨fun _ _ => trivial, rfl⟩

/-- The next step of slot 1. -/
def acceptingMove : Move Slot Memory (Remote ledger) JsError Op.Val :=
  .run slot1 (answering (fun _ => .lost "no database") accepting)

/-- Where nothing was accepted. -/
def untouchedRemote : Remote ledger := ⟨∅, false, [], fun _ => ⟨0, 0⟩⟩

/-- A life of `n` steps of slot 1, after what the last one left. -/
def life (n : ℕ) (r : Remote ledger) :
    Option (Coop.Config Slot Memory (Remote ledger) JsError Op.Val) :=
  if noRows (restarted r) then
    playWithin (service ledger tradingConfig) noRows
      ((service ledger tradingConfig).start (offeredAgain r)) (List.replicate n acceptingMove)
  else none

theorem run_of_life {n : ℕ} {r : Remote ledger}
    {c : Coop.Config Slot Memory (Remote ledger) JsError Op.Val} (h : life n r = some c) :
    Run (service ledger tradingConfig) Disjoint
      ((service ledger tradingConfig).start (restarted r)) c := by
  obtain ⟨hrows, h⟩ := Option.ite_none_right_eq_some.1 h
  have hfair : ∀ m ∈ List.replicate n acceptingMove, m.Fair (service ledger tradingConfig) :=
    fun m hm => List.eq_of_mem_replicate hm ▸ answering_fair _ (accepting_answers slot1)
  have hoffered : Run (service ledger tradingConfig) Disjoint
      ((service ledger tradingConfig).start (restarted r))
      ((service ledger tradingConfig).start (offeredAgain r)) :=
    .step .refl (.env (.deliver _ (restarted r))) (disjoint_of_noRows hrows)
  exact hoffered.trans ((Run.of_playWithin hrows hfair h).mono fun w l w' h =>
    disjoint_of_noRows h.1)

end Acceptance

end IntradayBot.Node
