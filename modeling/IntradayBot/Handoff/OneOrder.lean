import IntradayBot.Coop.Rely
import IntradayBot.Handoff.RunOnce

/-!
# One order for a candidate

The record of a candidate is never removed, so one process reserves it, once
(`Reserving.kept`). It is that process that may send the order of the candidate, and only
until it has: what lets it send is the reservation it has just made (`MayPlace`), which
nothing but `createClaim` gives and which `placeDemoOrder` uses up. A process that is cut short
starts again without one.

Hence an order is sent for each candidate at most once, whatever fails and wherever processes
crash (`one_order`).
-/

namespace IntradayBot.Handoff

open Coop PyText

variable {sha256 : String → String} {ι : Type}

/-- The key of the record of an order. -/
def PlacedOrder.key (sha256 : String → String) (o : PlacedOrder) : String :=
  ledgerKey sha256 (strip o.candidate.candidateKey)

/-- The orders whose record is under `κ`. -/
def Durable.ordersOf (sha256 : String → String) (d : Durable ι) (κ : String) : List PlacedOrder :=
  d.orders.filter fun o => o.key sha256 = κ

/-- Orders are those of reserved records, one for each. -/
structure Reserving (sha256 : String → String) (d : Durable ι) : Prop where
  kept : ∀ κ, d.reservedBy κ ≠ none → d.store.ledger κ ≠ none
  reserved : ∀ κ, d.ordersOf sha256 κ ≠ [] → d.reservedBy κ ≠ none
  once : ∀ κ, (d.ordersOf sha256 κ).length ≤ 1

/-- The others leave alone what `i` has reserved. -/
def Spares (sha256 : String → String) (i : ι) (d d' : Durable ι) : Prop :=
  ∀ κ, d.reservedBy κ = some i →
    d'.reservedBy κ = some i ∧ d'.ordersOf sha256 κ = d.ordersOf sha256 κ

/-- The contract of the processes. -/
def reservations (sha256 : String → String) (ι : Type) : Contract ι Unit (Durable ι) where
  inv w := Reserving sha256 w.remote
  rely i w w' := Spares sha256 i w.remote w'.remote
  step _ _ := True
  rely_refl _ _ _ hκ := ⟨hκ, rfl⟩
  rely_trans _ _ _ _ h₁ h₂ κ hκ :=
    have h := h₁ κ hκ
    have h' := h₂ κ h.1
    ⟨h'.1, h'.2.trans h.2⟩
  step_refl _ := trivial

/-- `i` may send the order of the record under `κ`. -/
structure MayPlace (sha256 : String → String) (i : ι) (κ : String) (w : World Unit (Durable ι)) :
    Prop where
  mine : w.remote.reservedBy κ = some i
  unsent : w.remote.ordersOf sha256 κ = []

variable (sha256) in
theorem mayPlace_stable (i : ι) (κ : String) :
    (reservations sha256 ι).Stable i (MayPlace sha256 i κ) := by
  intro w w' hr _ h
  have hκ := hr κ h.mine
  exact ⟨hκ.1, hκ.2.trans h.unsent⟩

theorem true_stable (i : ι) : (reservations sha256 ι).Stable i fun _ => True := .const True

/-! ## The answers -/

/-- Only the records grow, by calls of the store. -/
theorem ledger_perform (o : StoreOp) (s : Store) {κ : String} (h : s.ledger κ ≠ none) :
    (o.perform s).2.ledger κ ≠ none := by
  cases o with
  | putLedger key r =>
    by_cases hκ : κ = key
    · simp [StoreOp.perform, hκ]
    · simpa [StoreOp.perform, hκ] using h
  | putLedgerIfAbsent key r =>
    by_cases hkey : s.ledger key = none
    · have hκ : κ ≠ key := fun hκ => h (hκ ▸ hkey)
      simpa [StoreOp.perform, hkey, hκ] using h
    · simpa [StoreOp.perform, hkey] using h
  | putActiveIfAbsent c | compareAndSwapActive c c' =>
    simp only [StoreOp.perform]
    split <;> exact h
  | _ => exact h

section

variable [DecidableEq ι]

/-- A call reserves at most the record it has put. -/
theorem reservedBy_note (d : Durable ι) (i : ι) (o : StoreOp) (κ : String) :
    ({ d with store := (o.perform d.store).2 }.note i o (o.perform d.store).1).reservedBy κ =
        d.reservedBy κ ∨
      (d.store.ledger κ = none ∧ (o.perform d.store).2.ledger κ ≠ none ∧
        ({ d with store := (o.perform d.store).2 }.note i o (o.perform d.store).1).reservedBy κ =
          some i) := by
  cases o with
  | getActive recovering =>
    refine .inl ?_
    cases recovering with
    | false => rfl
    | true =>
      cases hc : d.store.active with
      | none => simp [StoreOp.perform, Durable.note, hc]
      | some c =>
        simp only [StoreOp.perform, Durable.note, hc]
        split <;> rfl
  | putActiveIfAbsent c =>
    refine .inl ?_
    simp only [StoreOp.perform]
    split <;> rfl
  | putLedgerIfAbsent key r =>
    -- The only operation that reserves a key, and only where the ledger had none for it.
    by_cases hkey : d.store.ledger key = none
    · by_cases hκ : κ = key
      · refine .inr ⟨hκ ▸ hkey, ?_, ?_⟩
        · simp [StoreOp.perform, hkey, hκ]
        · simp [StoreOp.perform, Durable.note, hkey, hκ]
      · exact .inl (by simp [StoreOp.perform, Durable.note, hkey, hκ])
    · exact .inl (by simp [StoreOp.perform, Durable.note, hkey])
  | _ => exact .inl rfl

end

/-- A step that sends nothing, and reserves at most records that were missing. -/
structure Unplacing (i : ι) (d d' : Durable ι) : Prop where
  orders : d'.orders = d.orders
  ledger : ∀ κ, d.store.ledger κ ≠ none → d'.store.ledger κ ≠ none
  reservedBy : ∀ κ, d'.reservedBy κ = d.reservedBy κ ∨
    (d.store.ledger κ = none ∧ d'.store.ledger κ ≠ none ∧ d'.reservedBy κ = some i)

theorem Unplacing.ordersOf {i : ι} {d d' : Durable ι} (h : Unplacing i d d') (κ : String) :
    d'.ordersOf sha256 κ = d.ordersOf sha256 κ := by
  rw [Durable.ordersOf, h.orders, Durable.ordersOf]

/-- What is reserved stays so. -/
theorem Unplacing.kept {i : ι} {d d' : Durable ι} (h : Unplacing i d d')
    (hd : Reserving sha256 d) {κ : String} (hκ : d.reservedBy κ ≠ none) :
    d'.reservedBy κ = d.reservedBy κ :=
  (h.reservedBy κ).resolve_right fun hnew => hd.kept κ hκ hnew.1

theorem Unplacing.spares {i j : ι} {d d' : Durable ι} (h : Unplacing i d d')
    (hd : Reserving sha256 d) : Spares sha256 j d d' :=
  fun κ hκ => ⟨(h.kept hd (by simp [hκ])).trans hκ, h.ordersOf κ⟩

theorem Unplacing.reserving {i : ι} {d d' : Durable ι} (h : Unplacing i d d')
    (hd : Reserving sha256 d) : Reserving sha256 d' where
  kept κ hκ := by
    rcases h.reservedBy κ with hsame | ⟨-, hnew, -⟩
    · exact h.ledger κ (hd.kept κ (hsame ▸ hκ))
    · exact hnew
  reserved κ hκ := by
    have hres := hd.reserved κ (h.ordersOf κ ▸ hκ)
    rw [h.kept hd hres]
    exact hres
  once κ := h.ordersOf κ ▸ hd.once κ

theorem Unplacing.keeps {i : ι} {w w' : World Unit (Durable ι)}
    (h : Unplacing i w.remote w'.remote) (hw : (reservations sha256 ι).inv w) :
    (reservations sha256 ι).Keeps i w w' :=
  ⟨h.reserving hw, fun _ _ => h.spares hw, trivial⟩

/-- Any request but that of an order. -/
def Unplaced : Op → Prop
  | .submit _ _ => False
  | _ => True

/-- A program that sends no order. -/
abbrev Unplaces {α : Type} (p : Proc α) : Prop := p.All (fun _ => True) Unplaced

variable [DecidableEq ι]

theorem Answers.unplacing {i : ι} {o : Op} {d d' : Durable ι} {a : Except String o.Val}
    (h : Answers i o d a d') (ho : Unplaced o) : Unplacing i d d' := by
  cases h with
  | done o =>
    exact ⟨orders_note _ _ _ _, fun κ hκ => by simpa using ledger_perform o _ hκ,
      fun κ => by simpa using reservedBy_note d i o κ⟩
  | unacknowledged o => exact ⟨rfl, fun κ => ledger_perform o _, fun κ => .inl rfl⟩
  | submit => exact ho.elim
  | _ => exact ⟨rfl, fun _ => id, fun _ => .inl rfl⟩

theorem calm_unplaced (i : ι) :
    Calm (handoff sha256 ι) (fun _ _ _ => True) (reservations sha256 ι) i
      (fun _ => True) Unplaced where
  sync _ w _ hw _ :=
    have h : Unplacing i w.remote w.remote := ⟨rfl, fun _ => id, fun _ => .inl rfl⟩
    ⟨h.keeps hw, h.spares hw⟩
  call _ w _ r ho hw ha _ :=
    have h : Unplacing i w.remote r := Answers.unplacing ha ho
    have hkeeps : (reservations sha256 ι).Keeps i w ⟨w.mem, r⟩ := h.keeps hw
    ⟨hkeeps, h.spares hw⟩

/-! ## What sends no order -/

section

-- the checks of a program are not evaluated
attribute [local irreducible] Prog.require ite

variable {candidate : Candidate} {claim : Claim} {timestamp : ℕ}

theorem Minors.unplaces {α : Type} {p : Proc α} (h : Minors p) : Unplaces p :=
  h.mono (fun _ h => h) fun o ho => by cases o <;> trivial

theorem store_unplaces (o : StoreOp) : Unplaces (store o) := .request trivial

theorem present_unplaces {α : Type} (value : Option α) (message : String) :
    Unplaces (present value message) := (present_minor value message).unplaces

theorem writeRecord_unplaces (key : String) (record : LedgerRecord) :
    Unplaces (writeRecord key record) := (writeRecord_minor key record).unplaces

theorem persistClaim_unplaces (claim : Claim) : Unplaces (persistClaim claim) :=
  .bind (store_unplaces _) fun _ => .bind (store_unplaces _) fun _ =>
    .bind (present_unplaces _ _) fun _ => .bind (.require _ _) fun _ =>
    .bind (.require _ _) fun _ => .ret _

theorem transitionClaim_unplaces (claim : Claim) (state : ClaimState) (timestamp : ℕ) :
    Unplaces (transitionClaim sha256 claim state timestamp) :=
  .bind (persistClaim_unplaces _) fun _ => .bind (ensureClaimMetadata_minor _ _).unplaces fun _ =>
    .bind (syncLedger_minor _ _ _ _).unplaces fun _ => .ret _

theorem createActiveClaim_unplaces (candidate : Candidate) (timestamp : ℕ) :
    Unplaces (createActiveClaim candidate timestamp) := by
  refine .bind (.request trivial) fun _ => .bind (store_unplaces _) fun created => ?_
  split
  · exact .bind (store_unplaces _) fun _ => .bind (present_unplaces _ _) fun _ =>
      .bind (.require _ _) fun _ => .ret _
  · exact .bind (store_unplaces _) fun _ => .ret _

theorem createReservedClaim_unplaces (candidate : Candidate) (candidateKey : String)
    (timestamp : ℕ) :
    Unplaces (createReservedClaim sha256 candidate candidateKey timestamp) := by
  refine .bind (store_unplaces _) fun _ => .bind (present_unplaces _ _) fun _ =>
    .bind (.require _ _) fun _ => .bind (.handle (createActiveClaim_unplaces _ _) fun _ =>
      .bind (writeRecord_unplaces _ _) fun _ => .throw _) fun claim => ?_
  cases claim with
  | none => exact .bind (writeRecord_unplaces _ _) fun _ => .ret _
  | some claim =>
    exact .bind (persistClaim_unplaces _) fun _ => .bind (writeRecord_unplaces _ _) fun _ =>
      .bind (claimBinding_minor _).unplaces fun _ => .ret _

theorem archiveAndClearClaim_unplaces (claim : Claim) : Unplaces (archiveAndClearClaim claim) :=
  .bind (store_unplaces _) fun _ => .bind (store_unplaces _) fun _ =>
    .bind (present_unplaces _ _) fun _ => .bind (.require _ _) fun _ => store_unplaces _

theorem completeResolvedClaim_unplaces (claim : Claim) (timestamp : ℕ) :
    Unplaces (completeResolvedClaim sha256 claim timestamp) := by
  refine .bind (.request trivial) fun removed => ?_
  split
  · exact .bind (transitionClaim_unplaces _ _ _) fun _ => archiveAndClearClaim_unplaces _
  · exact .bind (transitionClaim_unplaces _ _ _) fun _ => .ret _

theorem recoverOrBlockExistingClaim_unplaces (claim : Claim) (timestamp : ℕ) :
    Unplaces (recoverOrBlockExistingClaim sha256 claim timestamp) := by
  unfold recoverOrBlockExistingClaim completeRecoveredClaim
  split
  · split
    · refine .bind (.attempt (.bind (.request trivial) fun _ => transitionClaim_unplaces _ _ _))
        fun accounted => ?_
      cases accounted with
      | ok claim => exact completeResolvedClaim_unplaces _ _
      | error e => exact .ret _
    · exact completeResolvedClaim_unplaces _ _
  · exact .ret _

theorem submissionUnknown_unplaces (claim : Claim) (timestamp : ℕ) :
    Unplaces (submissionUnknown sha256 claim timestamp) :=
  .handle (.bind (transitionClaim_unplaces _ _ _) fun _ => .ret _) fun _ => .ret _

theorem holding_unplaces {α : Type} {p : Proc α} {next : α → Proc Unit} (hp : Unplaces p)
    (hnext : ∀ a, Unplaces (next a)) : Unplaces (holding sha256 claim timestamp p next) := by
  refine .bind hp.attempt fun r => ?_
  cases r with
  | ok a => exact hnext a
  | error e => exact submissionUnknown_unplaces _ _

end

/-! ## The order of a reserved candidate -/

section

variable {i : ι}

attribute [local irreducible] Prog.require ite

/-- The rules for a process whose contract is that of the reservations. -/
abbrev Does (sha256 : String → String) (i : ι) {α : Type} (P : World Unit (Durable ι) → Prop)
    (p : Proc α) (Q : α → World Unit (Durable ι) → Prop) : Prop :=
  Triple (handoff sha256 ι) (fun _ _ _ => True) (reservations sha256 ι) i P p Q fun _ _ => True

theorem Unplaces.does {α : Type} {p : Proc α} (hp : Unplaces p)
    {P : World Unit (Durable ι) → Prop} (hP : (reservations sha256 ι).Stable i P) :
    Does sha256 i P p fun _ => P :=
  ((calm_unplaced i).triple hp hP).conseq (fun _ _ h => h) (fun _ _ _ h => h)
    fun _ _ _ _ => trivial

theorem Unplaces.done {α : Type} {p : Proc α} (hp : Unplaces p)
    {P : World Unit (Durable ι) → Prop} : Does sha256 i P p fun _ _ => True :=
  (hp.does (true_stable i)).conseq (fun _ _ _ => trivial) (fun _ _ _ h => h) fun _ _ _ h => h

/-- Sending the order of a record that `i` has reserved. -/
theorem submit_does (candidate : Candidate) (orderLinkId : String) :
    Does sha256 i (MayPlace sha256 i (ledgerKey sha256 (strip candidate.candidateKey)))
      (Prog.request (Op.submit candidate orderLinkId)) fun _ _ => True := by
  refine .request (mayPlace_stable _ _ _) (fun _ => true_stable i) (fun _ => true_stable i)
    fun w a r hw hmay ha _ => ⟨?_, by cases a <;> trivial⟩
  have hw : Reserving sha256 w.remote := hw
  obtain rfl : r = { w.remote with orders := ⟨candidate, orderLinkId⟩ :: w.remote.orders } := by
    cases ha
    rfl
  have hother : ∀ κ, κ ≠ ledgerKey sha256 (strip candidate.candidateKey) →
      Durable.ordersOf sha256
        { w.remote with orders := ⟨candidate, orderLinkId⟩ :: w.remote.orders } κ =
      w.remote.ordersOf sha256 κ := fun κ hκ =>
    List.filter_cons_of_neg (by simpa [PlacedOrder.key, eq_comm] using hκ)
  refine ⟨⟨hw.kept, fun κ hκ => ?_, fun κ => ?_⟩, fun j hj κ hκ => ⟨hκ, hother κ ?_⟩, trivial⟩
  · by_cases h : κ = ledgerKey sha256 (strip candidate.candidateKey)
    · simp [h, hmay.mine]
    · exact hw.reserved κ (hother κ h ▸ hκ)
  · by_cases h : κ = ledgerKey sha256 (strip candidate.candidateKey)
    · have hnone : w.remote.ordersOf sha256 κ = [] := h ▸ hmay.unsent
      simp only [Durable.ordersOf] at hnone ⊢
      rw [List.filter_cons_of_pos (by simp [PlacedOrder.key, h]), hnone]
      rfl
    · exact hother κ h ▸ hw.once κ
  · -- the record is reserved by `i`, and not by another process
    rintro rfl
    exact hj (Option.some.inj (hκ.symm.trans hmay.mine))

theorem placeDemoOrder_does (candidate : Candidate) (binding : Binding) :
    Does sha256 i (MayPlace sha256 i (ledgerKey sha256 (strip candidate.candidateKey)))
      (placeDemoOrder sha256 candidate binding) fun _ _ => True := by
  have hmay := mayPlace_stable sha256 i (ledgerKey sha256 (strip candidate.candidateKey))
  have checks : Unplaces (Prog.request (Op.orderChecks candidate) : Proc _) := .request trivial
  refine .bind (checks.does hmay) fun allowed => ?_
  split
  · exact .bind ((generateOrderLinkId_minor binding).unplaces.does hmay) fun _ => submit_does _ _
  · exact .done_ok (true_stable i) fun _ _ _ => trivial

theorem submitClaim_does (candidate : Candidate) (claim : Claim) (binding : Binding)
    (timestamp : ℕ) :
    Does sha256 i (MayPlace sha256 i (ledgerKey sha256 (strip candidate.candidateKey)))
      (submitClaim sha256 candidate claim binding timestamp) fun _ _ => True := by
  refine .bind (.attempt (R := fun _ _ => True) (.bind (placeDemoOrder_does candidate binding)
    fun _ => Unplaces.done (.bind (transitionClaim_unplaces _ _ _) fun _ => .ret _)))
    fun sent => ?_
  cases sent with
  | error e => exact (submissionUnknown_unplaces _ _).done
  | ok submitted =>
    have journal : Unplaces (Prog.request Op.journal : Proc Unit) := .request trivial
    refine Unplaces.done (holding_unplaces (transitionClaim_unplaces _ _ _) fun _ =>
      holding_unplaces (journal.bind fun _ => ?_) fun _ => .ret _)
    split
    · exact .ret _
    · exact completeResolvedClaim_unplaces _ _

/-- Whoever reserves a record may send its order: none was. -/
theorem reserve_does (key : String) (record : LedgerRecord) :
    Does sha256 i (fun _ => True) (store (.putLedgerIfAbsent key record)) fun created w =>
      created = true → MayPlace sha256 i key w := by
  refine .request (true_stable i) (fun created w w' hr hw' h hc =>
    mayPlace_stable sha256 i key w w' hr hw' (h hc)) (fun _ => true_stable i) fun w a r hw _ ha _ => ?_
  have hw : Reserving sha256 w.remote := hw
  have hkeeps : (reservations sha256 ι).Keeps i w ⟨w.mem, r⟩ :=
    (Answers.unplacing ha trivial).keeps hw
  refine ⟨hkeeps, ?_⟩
  cases ha with
  | done o d =>
    intro hcreated
    have hmissing : w.remote.store.ledger key = none := by
      by_contra hne
      simp [StoreOp.perform, hne] at hcreated
    have hfree : w.remote.reservedBy key = none := by
      by_contra hne
      exact hw.kept key hne hmissing
    refine ⟨by simp [StoreOp.perform, Durable.note, hmissing], ?_⟩
    have hsame : w.remote.ordersOf sha256 key = [] := by
      by_contra hne
      exact hw.reserved key hne hfree
    simpa only [Durable.ordersOf, orders_note] using hsame
  | _ => trivial

theorem createClaim_does (candidate : Candidate) (timestamp : ℕ) :
    Does sha256 i (fun _ => True) (createClaim sha256 candidate timestamp) fun claim w =>
      claim ≠ none → MayPlace sha256 i (ledgerKey sha256 (strip candidate.candidateKey)) w := by
  have hkey : Does sha256 i (fun _ => True) (candidateKeyOf candidate)
      fun key _ => key = strip candidate.candidateKey :=
    .bind (Unplaces.done (.require _ _)) fun _ => .bind (Unplaces.done (.require _ _)) fun _ =>
      .done_ok (.const _) fun _ _ _ => rfl
  refine .bind hkey fun key => .of_forall fun _ _ hkey => ?_
  subst hkey
  refine .conseq (.bind (reserve_does _ _) fun created => ?_) (fun _ _ _ => trivial)
    (fun _ _ _ h => h) fun _ _ _ h => h
  have hmay := mayPlace_stable sha256 i (ledgerKey sha256 (strip candidate.candidateKey))
  have stable : ∀ claim : Option (Claim × Binding), (reservations sha256 ι).Stable i fun w =>
      claim ≠ none → MayPlace sha256 i (ledgerKey sha256 (strip candidate.candidateKey)) w :=
    fun claim w w' hr hw' h hc => hmay w w' hr hw' (h hc)
  split
  next hcreated =>
    exact .conseq ((createReservedClaim_unplaces _ _ _).does hmay) (fun _ _ h => h hcreated)
      (fun _ _ _ h _ => h) fun _ _ _ h => h
  next =>
    exact .bind (reportConflict_minor _).unplaces.done fun _ =>
      .done_ok (stable none) fun _ _ _ hne => absurd rfl hne

theorem runOnce_does : Does sha256 i (fun _ => True) (runOnce sha256) fun _ _ => True := by
  have time : Unplaces (Prog.request Op.time : Proc _) := .request trivial
  have next : Unplaces (Prog.request Op.candidate : Proc _) := .request trivial
  refine .bind time.done fun timestamp => .bind (store_unplaces _).done fun available => ?_
  split
  · refine .bind (store_unplaces _).done fun active => ?_
    cases active with
    | some claim => exact (recoverOrBlockExistingClaim_unplaces _ _).done
    | none =>
      refine .bind next.done fun candidate => ?_
      cases candidate with
      | none => exact Unplaces.done (.ret _)
      | some candidate =>
        refine .bind (createClaim_does candidate timestamp) fun created => ?_
        cases created with
        | none => exact Unplaces.done (.ret _)
        | some created =>
          exact .conseq (submitClaim_does candidate created.1 created.2 timestamp)
            (fun _ _ h => h (Option.some_ne_none _)) (fun _ _ _ h => h) fun _ _ _ h => h
  · exact Unplaces.done (.ret _)

theorem processBody_does : Does sha256 i (fun _ => True) (processBody sha256) fun _ _ => True := by
  have release : Unplaces (Prog.request Op.release : Proc _) := .request trivial
  have restarted : Unplaces (Prog.request Op.restarted : Proc _) := .request trivial
  have time : Unplaces (Prog.request Op.time : Proc _) := .request trivial
  have run : Does sha256 i (fun _ => True) (runOnce sha256).attempt fun _ _ => True :=
    .attempt runOnce_does
  refine .bind release.done fun _ => .bind restarted.done fun fresh => ?_
  have tail := Triple.bind run fun _ => release.done
  split
  · exact .bind time.done fun _ =>
      .bind (bootstrapExistingActiveClaim_minor sha256 _).unplaces.done fun _ => tail
  · exact tail

/-- The processes keep to the reservations. -/
theorem handoff_reserving : Verified (handoff sha256 ι) (fun _ _ _ => True)
    (reservations sha256 ι) (fun _ _ => True) fun _ _ => True where
  body _ := processBody_does
  loop _ _ _ _ _ := trivial
  cut _ _ _ _ _ := trivial
  env w w' hw he _ := by
    obtain rfl : w' = w := he
    exact ⟨hw, fun j => (reservations sha256 ι).rely_refl j _, trivial⟩

end

/-- No order has been sent yet. -/
structure Durable.Unsent (d : Durable ι) : Prop where
  orders : d.orders = []
  reservedBy : ∀ κ, d.reservedBy κ = none

omit [DecidableEq ι] in
theorem Durable.Unsent.reserving {d : Durable ι} (h : d.Unsent) : Reserving sha256 d where
  kept κ hκ := absurd (h.reservedBy κ) hκ
  reserved κ hκ := absurd (by simp [Durable.ordersOf, h.orders]) hκ
  once κ := by simp [Durable.ordersOf, h.orders]

/-- Whatever fails and wherever processes crash, an order is sent at most once for each
    candidate. -/
theorem one_order (sha256 : String → String) {d : Durable ι} (hd : d.Unsent)
    {c : Config ι Unit (Durable ι) String Op.Val}
    (h : Run (handoff sha256 ι) (fun _ _ _ => True) ((handoff sha256 ι).start ⟨(), d⟩) c)
    (candidateKey : String) :
    (c.world.remote.orders.filter fun o =>
      o.candidate.candidateKey = candidateKey ∧ o.orderLinkId ≠ "").length ≤ 1 := by
  have hinv : Reserving sha256 c.world.remote :=
    handoff_reserving.run (w := ⟨(), d⟩) hd.reserving (fun _ => trivial) h
  refine (List.Sublist.length_le ?_).trans (hinv.once (ledgerKey sha256 (strip candidateKey)))
  refine List.monotone_filter_right _ fun o ho => ?_
  have ho : o.candidate.candidateKey = candidateKey ∧ o.orderLinkId ≠ "" := by simpa using ho
  simp [PlacedOrder.key, ho.1]

theorem vacant_unsent : vacant.Unsent := ⟨rfl, fun _ => rfl⟩

/-- A process sends the order of a candidate and is cut short before it can say so. Both
    processes then find the same candidate. -/
def cutAfterOrder (p q : Fin 2) : List (Move (Fin 2) Unit (Durable (Fin 2)) String Op.Val) :=
  let oblige i := oblige i ⟨"ETHUSDT:1", "ETHUSDT", "Buy"⟩ "claim"
  List.replicate 20 (.run p (oblige p)) ++ [.cut p] ++ List.replicate 8 (.run p (oblige p)) ++
    List.replicate 8 (.run q (oblige q))

theorem cutAfterOrder_fair (p q : Fin 2) :
    ∀ m ∈ cutAfterOrder p q, m.Fair (handoff (fun text => text) (Fin 2)) := by
  intro m hm
  simp only [cutAfterOrder, List.mem_append, List.mem_replicate, List.mem_singleton] at hm
  rcases hm with ((⟨-, rfl⟩ | rfl) | ⟨-, rfl⟩) | ⟨-, rfl⟩
  · exact oblige_fair _ _ _ _
  · exact trivial
  · exact oblige_fair _ _ _ _
  · exact oblige_fair _ _ _ _

theorem cutAfterOrder_sent : (playAll (handoff (fun text => text) (Fin 2))
    ((handoff (fun text => text) (Fin 2)).start ⟨(), vacant⟩) (cutAfterOrder 0 1)).map
    (fun c => c.world.remote.orders.length) = some 1 := by
  decide +kernel

/-- In that run, one order is sent. -/
theorem one_order_cutAfterOrder : ∃ c : Config (Fin 2) Unit (Durable (Fin 2)) String Op.Val,
    c.world.remote.orders.length = 1 ∧
      (c.world.remote.orders.filter fun o =>
        o.candidate.candidateKey = "ETHUSDT:1" ∧ o.orderLinkId ≠ "").length ≤ 1 := by
  obtain ⟨c, hc, hsent⟩ := Option.map_eq_some_iff.1 cutAfterOrder_sent
  exact ⟨c, hsent, one_order (fun text => text) vacant_unsent
    (Run.of_playAll (cutAfterOrder_fair 0 1) hc) "ETHUSDT:1"⟩

end IntradayBot.Handoff
