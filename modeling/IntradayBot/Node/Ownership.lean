import IntradayBot.Node.Exclusion

/-!
# The command of a slot

The contract of the loops over the two stores, and the rules for a slot that holds
a command (`Holds`): whatever the slot does with it is a `Change`, and the others
spare it. The contract may be extended by an invariant of its own (`Extension`),
to be kept by the changes and the arrivals.
-/

namespace IntradayBot.Node

open Coop HybridRepository

variable {X : ExchangeModel}

/-- The database claims no row whose candidate is in memory, and no candidate is
    delivered whose row was taken. -/
structure Disjoint (w : ServiceWorld X) (l : Label Slot JsError Op.Val) (w' : ServiceWorld X) :
    Prop where
  claimed : ∀ k c c', row? w k = some c → c.state = .available → row? w' k = some c' →
    c'.state ≠ .available → stored? w k = none
  delivered : l = .env → ∀ k c, stored? w k = none → stored? w' k ≠ none → row? w k = some c →
    c.state = .available

/-- What a slot held, by its key. -/
def At (i : Slot) (held : Option String) (w : ServiceWorld X) : Prop :=
  match held with
  | some k => ∃ c, Copy w k c ∧ Busy i c
  | none => ∀ k c, Copy w k c → ¬Busy i c

/-- No command of a store is owned by the slot. -/
def Unowned (config : Config) (i : Slot) (store : String → Option Command) : Prop :=
  ∀ k c, store k = some c → Busy i c → c.ownerId ≠ some (SlotLoop.owner config i)

/-- An invariant added to that of the stores, and what it says of the calls of the
    slots. -/
structure Extension (X : ExchangeModel) (config : Config)
    (ok : Condition Slot Memory (Remote X) JsError Op.Val) where
  inv : ServiceWorld X → Prop
  /-- What a slot knows when it takes a candidate. -/
  Free : Slot → ServiceWorld X → Prop
  Call : SlotCall → Prop
  disjoint : ∀ {w l w'}, ok w l w' → Disjoint w l w'
  change : ∀ {i w l w'}, ok w l w' → Exclusive w → Exclusive w' →
    Change Free (SlotLoop.owner config) i w w' → inv w → inv w'
  arrival : ∀ {w l w'}, ok w l w' → Exclusive w → Exclusive w' → Arrival w w' → inv w → inv w'
  stable_free : ∀ {i w w'}, Rely i w w' → Free i w → Free i w'
  /-- The slot found nothing. -/
  free : ∀ {i w}, Exclusive w → inv w → Unowned config i (stored? w) →
    (w.mem.usable = true → Unowned config i (row? w)) → Free i w
  owned : ∀ {i held r w}, Exclusive w → inv w → At i held w → (r = none → Free i w) →
    (∀ k, r = some k → At i (some k) w) → Call ⟨i, .ownedActiveCommand, held, r⟩
  claimed : ∀ {i held r w}, Exclusive w → inv w → At i held w → Free i w →
    Call ⟨i, .claim, held, r⟩

variable {config : Config} {ok : Condition Slot Memory (Remote X) JsError Op.Val}

/-- The invariant of the service. -/
structure Extension.Invariant (E : Extension X config ok) (w : ServiceWorld X) : Prop where
  exclusive : Exclusive w
  inv : E.inv w
  calls : ∀ call ∈ w.mem.calls, E.Call call

/-- The contract of the loops. -/
def contract (E : Extension X config ok) : Contract Slot Memory (Remote X) where
  inv := E.Invariant
  rely := Rely
  step := Forward
  rely_refl := Rely.refl
  rely_trans _ _ _ _ := Rely.trans
  step_refl := Forward.refl

section

variable {E : Extension X config ok} {i : Slot} {w w' : ServiceWorld X}

/-- A change keeps the contract. -/
theorem Change.keeps {l : Label Slot JsError Op.Val}
    (h : Change E.Free (SlotLoop.owner config) i w w') (calls : w'.mem.calls = w.mem.calls)
    (hw : (contract E).inv w) (hok : ok w l w') : (contract E).Keeps i w w' where
  inv := ⟨h.exclusive hw.exclusive, E.change hok hw.exclusive (h.exclusive hw.exclusive) h hw.inv,
    calls ▸ hw.calls⟩
  rely _ hj := h.rely hw.exclusive hj
  step := h.forward hw.exclusive

/-- The entry order of the candidate was not requested yet, if `n`. -/
structure Holds (config : Config) (i : Slot) (n : Prop) (c : Command) (w : ServiceWorld X) :
    Prop where
  busy : Busy i c
  owner : c.ownerId = some (SlotLoop.owner config i)
  /-- What the repository sees of the command. -/
  copy : ∃ d, visible w c.candidateKey = some d ∧ d.state = c.state ∧ d.slotId = c.slotId ∧
    d.ownerId = c.ownerId
  unsent : n → ¬Sent w c.candidateKey

theorem Holds.mono {n n' : Prop} {c : Command} (h : Holds config i n c w) (hn : n' → n) :
    Holds config i n' c w :=
  ⟨h.busy, h.owner, h.copy, fun h' => h.unsent (hn h')⟩

theorem holds_stable (E : Extension X config ok) (i : Slot) (n : Prop) (c : Command) :
    (contract E).Stable i (Holds config i n c) := by
  intro w w' hr _ h
  obtain ⟨d, hd, hst, hslot, hown⟩ := h.copy
  have hs : Stamped i d := ⟨hslot.trans h.busy.1, hst ▸ h.busy.2.ne_available⟩
  have hr' : Rely i w w' := hr
  exact ⟨h.busy, h.owner, ⟨d, hr'.visible hs hd, hst, hslot, hown⟩,
    fun hn => hr'.unsent _ d hs hd (h.unsent hn)⟩

/-- A reserved command has no entry order. -/
theorem Holds.unsent_of_reserved {c : Command} (h : Holds config i False c w)
    (hw : Exclusive w)
    (hc : c.state = .reserved) : Holds config i True c w := by
  refine ⟨h.busy, h.owner, h.copy, fun _ hsent => ?_⟩
  obtain ⟨d, hd, hst, -⟩ := h.copy
  obtain ⟨e, he, -, hne⟩ := (hw.at_key _).sent hsent
  obtain rfl : d = e := Option.some.inj (hd.symm.trans he)
  exact hne (hst.trans hc)

/-! ## Quiet steps -/

/-- Nothing but the support and the ghosts changes. -/
theorem change_of_same {Free : Slot → ServiceWorld X → Prop} {owner : Slot → String}
    (direct : w'.mem.direct = w.mem.direct)
    (commands : w'.remote.tables.commands = w.remote.tables.commands)
    (orders : entryKeys w'.remote.orders = entryKeys w.remote.orders)
    (usable : w'.mem.usable = true → w.mem.usable = true) : Change Free owner i w w' :=
  .quiet (fun k => by rw [stored?, stored?, direct])
    (fun k => by rw [row?, row?, Tables.row?, Tables.row?, commands]) orders usable

theorem rely_of_change_same (direct : w'.mem.direct = w.mem.direct)
    (commands : w'.remote.tables.commands = w.remote.tables.commands)
    (orders : entryKeys w'.remote.orders = entryKeys w.remote.orders) : Rely i w w' :=
  rely_of_same (fun k => by rw [stored?, stored?, direct])
    (fun k => by rw [row?, row?, Tables.row?, Tables.row?, commands]) orders

theorem usable_of_quiet {f : Memory → Memory} (h : Quiet f) (m : Memory)
    (hu : (f m).usable = true) : m.usable = true := by
  simp only [Memory.usable, Bool.and_eq_true] at hu ⊢
  exact ⟨h.database m ▸ hu.1, h.databaseReady m hu.2⟩

/-- What a quiet request leaves. -/
theorem respond_quiet {o : Op} (h : QuietOp o) {a : Except JsError o.Val} {r : Remote X}
    (hr : respond i o w a r) : r.tables.commands = w.remote.tables.commands ∧
      r.orders = w.remote.orders := by
  cases o with
  | db o =>
    obtain ⟨out, -, rfl⟩ := hr
    exact ⟨DbOp.Quiet.commands_answer h out _, rfl⟩
  | bybit o =>
    obtain ⟨s, -, rfl⟩ := hr
    exact ⟨rfl, by cases o <;> first | rfl | exact h.elim⟩
  | toss => exact ⟨hr.2 ▸ rfl, hr.2 ▸ rfl⟩
  | polls => exact ⟨hr.2 ▸ rfl, hr.2 ▸ rfl⟩
  | held slot => exact ⟨hr.2 ▸ rfl, hr.2 ▸ rfl⟩

theorem calm_quiet (E : Extension X config ok) (i : Slot) :
    Calm (service X config) ok (contract E) i Quiet QuietOp where
  sync f w hf hw hok := by
    have hchange : Change E.Free (SlotLoop.owner config) i w ⟨f w.mem, w.remote⟩ :=
      change_of_same (hf.direct _) rfl rfl (usable_of_quiet hf _)
    exact ⟨hchange.keeps (hf.calls _) hw hok, rely_of_change_same (hf.direct _) rfl rfl⟩
  call o w a r ho hw ha hok := by
    obtain ⟨hc, hor⟩ := respond_quiet ho ha
    have hkeys : entryKeys r.orders = entryKeys w.remote.orders := congrArg entryKeys hor
    have hchange : Change E.Free (SlotLoop.owner config) i w ⟨w.mem, r⟩ :=
      change_of_same rfl hc hkeys fun h => h
    exact ⟨hchange.keeps rfl hw hok, rely_of_change_same rfl hc hkeys⟩

/-! ## The entry in memory -/

/-- The entry of a held command is rewritten. -/
theorem Holds.rewrite {n : Prop} {c stored : Command} {l : Label Slot JsError Op.Val}
    (h : Holds config i n c w) (stored' : Command) (m : Memory) (hw : (contract E).inv w)
    (hs : stored? w c.candidateKey = some stored) (later : Later stored stored')
    (key : stored'.candidateKey = stored.candidateKey) (source : stored'.source = stored.source)
    (direct : m.direct = w.mem.direct.put stored') (usable : m.usable = true → w.mem.usable = true)
    (calls : m.calls = w.mem.calls) (hok : ok w l ⟨m, w.remote⟩) (c' : Command)
    (hkey : c'.candidateKey = c.candidateKey)
    (hst : c'.state = stored'.state) (hslot : c'.slotId = c.slotId) (hown : c'.ownerId = c.ownerId) :
    (contract E).Keeps i w ⟨m, w.remote⟩ ∧
      (c'.state.Active → Holds config i n c' ⟨m, w.remote⟩) := by
  obtain ⟨d, hd, hdst, hdslot, hdown⟩ := h.copy
  obtain rfl : stored = d := Option.some.inj ((visible_of_entry hs).symm.trans hd)
  have hstored : stored.candidateKey = c.candidateKey := CommandMap.candidateKey_of_get? hs
  -- The map changes at the key of `c` and nowhere else.
  have hget : ∀ k, stored? (⟨m, w.remote⟩ : ServiceWorld X) k =
      if k = c.candidateKey then some stored' else stored? w k := fun k => by
    rw [stored?, direct, CommandMap.get?_put, key, hstored]
  have hbusy : Busy i stored := ⟨hdslot.trans h.busy.1, hdst ▸ h.busy.2⟩
  have hafter := (hget c.candidateKey).trans (if_pos rfl)
  have hchange : Change E.Free (SlotLoop.owner config) i w ⟨m, w.remote⟩ :=
    .moved c.candidateKey ⟨fun k hk => (hget k).trans (if_neg hk), fun _ _ => rfl, fun _ _ => .rfl,
      usable⟩ stored stored' hbusy hs hafter later source rfl rfl
  refine ⟨hchange.keeps calls hw hok, fun ha => ⟨⟨hslot.trans h.busy.1, ha⟩, hown.trans h.owner,
    ⟨stored', ?_, hst.symm, ?_, ?_⟩, fun hn => ?_⟩⟩
  · rw [hkey]
    exact visible_of_entry hafter
  · exact (later.slotId.trans hdslot).trans hslot.symm
  · exact (later.ownerId.trans hdown).trans hown.symm
  · rw [hkey]
    exact h.unsent hn

/-- Nothing happens to a held command. -/
theorem Holds.skip {n : Prop} {c : Command} {l : Label Slot JsError Op.Val}
    (h : Holds config i n c w) (hw : (contract E).inv w) (hok : ok w l w) :
    (contract E).Keeps i w w ∧ Holds config i n c w := by
  have hchange : Change E.Free (SlotLoop.owner config) i w w := change_of_same rfl rfl rfl fun h => h
  exact ⟨hchange.keeps rfl hw hok, h⟩

/-- The entry in memory of a held command is in the state of the command. -/
theorem Holds.state_of_entry {n : Prop} {c stored : Command} (h : Holds config i n c w)
    (hs : stored? w c.candidateKey = some stored) : stored.state = c.state := by
  obtain ⟨d, hd, hdst, -⟩ := h.copy
  rwa [Option.some.inj ((visible_of_entry hs).symm.trans hd)]

theorem Holds.later_of_same {n : Prop} {c stored stored' : Command} (h : Holds config i n c w)
    (hs : stored? w c.candidateKey = some stored) (hst : stored'.state = stored.state)
    (hslot : stored'.slotId = stored.slotId) (hown : stored'.ownerId = stored.ownerId) :
    Later stored stored' :=
  ⟨hslot, hown, hst ▸ h.state_of_entry hs ▸ h.busy.2.ne_available, .inl hst⟩

/-- A call whose error is only noted does not throw. -/
theorem orDegrade_triple {α : Type} {P : ServiceWorld X → Prop} (hP : (contract E).Stable i P)
    {call : Proc α} (h : call.All Quiet QuietOp) (fallback : α)
    {F : JsError → ServiceWorld X → Prop} :
    Triple (service X config) ok (contract E) i P (orDegrade call fallback) (fun _ => P) F := by
  refine .handle ((calm_quiet E i).triple h hP) fun e =>
    .bind (Q := fun _ => P) (.atomically hP (fun _ => hP) fun w hw h hok => ?_) fun _ =>
      .done_ok hP fun _ _ h => h
  obtain ⟨hk, hr⟩ := (calm_quiet E i).sync _ w (quiet_degrade e.message) hw hok
  exact ⟨hk, hP _ _ hr hk.inv h⟩

theorem record_holds (E : Extension X config ok) (i : Slot) (n : Prop) (c : Command)
    (status : String) {F : JsError → ServiceWorld X → Prop} :
    Triple (service X config) ok (contract E) i (Holds config i n c) (recordOrder c status)
      (fun _ => Holds config i n c) F := by
  have stable := holds_stable E i n c
  refine .bind (.atomically stable (fun _ => stable) fun w hw h hok => ?_) fun usable => ?_
  · change (contract E).Keeps i w ⟨recordOrderDirect c w.mem, w.remote⟩ ∧
      Holds config i n c ⟨recordOrderDirect c w.mem, w.remote⟩
    replace hok : ok w (.sync i) ⟨recordOrderDirect c w.mem, w.remote⟩ := hok
    -- The map keeps the payload of the command it records for; a command of the table alone is
    -- no entry.
    unfold recordOrderDirect at hok ⊢
    cases hs : w.mem.direct.get? c.candidateKey with
    | some stored =>
      simp only [hs] at hok ⊢
      obtain ⟨hk, hh⟩ := h.rewrite { stored with payload := payloadOr c.payload stored.payload }
        (w.mem.putDirect { stored with payload := payloadOr c.payload stored.payload }) hw hs
        (h.later_of_same hs rfl rfl rfl) rfl rfl rfl (fun hu => hu) rfl hok c rfl
        (h.state_of_entry hs).symm rfl rfl
      exact ⟨hk, hh h.busy.2⟩
    | none =>
      simp only [hs] at hok ⊢
      exact h.skip hw hok
  · split
    · refine orDegrade_triple stable ?_ ()
      exact .request trivial
    · exact .done_ok stable fun _ _ h => h

/-- The size of a held command is published. -/
theorem mark_holds (E : Extension X config ok) (i : Slot) (n : Prop) (c : Command)
    (payload : Json) {F : JsError → ServiceWorld X → Prop} :
    Triple (service X config) ok (contract E) i (Holds config i n c)
      (Prog.atomically (markExecutionPayload { c with payload := payload } payload))
      (fun c' w => c' = { c with payload := payload } ∧ Holds config i n c' w) F := by
  have stable := holds_stable E i n c
  refine .atomically stable (fun c' => (Contract.Stable.const _).and (holds_stable E i n c'))
    fun w hw h hok => ?_
  unfold markExecutionPayload at hok ⊢
  cases hs : w.mem.direct.get? c.candidateKey with
  | some stored =>
    simp only [hs] at hok ⊢
    obtain ⟨hk, hh⟩ := h.rewrite { stored with payload := payload, updatedAt := w.mem.now }
      (w.mem.putDirect { stored with payload := payload, updatedAt := w.mem.now }) hw hs
      (h.later_of_same hs rfl rfl rfl) rfl rfl rfl (fun hu => hu) rfl hok { c with payload := payload }
      rfl (h.state_of_entry hs).symm rfl rfl
    exact ⟨hk, trivial, hh h.busy.2⟩
  | none =>
    simp only [hs] at hok ⊢
    exact ⟨(h.skip hw hok).1, trivial, h.busy, h.owner, h.copy, h.unsent⟩

/-! ## Transitions -/

/-- What a transition leaves: the command in its next state, if it is still worked on. -/
def Moved (config : Config) (i : Slot) (n : Prop) (c : Command) (s : CommandState) (c' : Command)
    (w : ServiceWorld X) : Prop :=
  c'.state = s ∧ c'.candidateKey = c.candidateKey ∧ (s.Active → Holds config i n c' w)

theorem moved_stable (E : Extension X config ok) (i : Slot) (n : Prop) (c : Command)
    (s : CommandState) (c' : Command) : (contract E).Stable i (Moved config i n c s c') :=
  fun w w' hr hi h => ⟨h.1, h.2.1, fun ha => holds_stable E i n c' w w' hr hi (h.2.2 ha)⟩

/-- The row of a held command, after a call that may have moved it. -/
structure Lost (i : Slot) (n : Prop) (c : Command) (s : CommandState) (w : ServiceWorld X) : Prop where
  absent : stored? w c.candidateKey = none
  row : ∃ row, row? w c.candidateKey = some row ∧ Stamped i row ∧ (s.Active → row.state.Active)
  unsent : n → ¬Sent w c.candidateKey

theorem lost_stable (E : Extension X config ok) (i : Slot) (n : Prop) (c : Command)
    (s : CommandState) : (contract E).Stable i (Lost i n c s) := by
  intro w w' hr _ ⟨habs, ⟨row, hrow, hst, hact⟩, hun⟩
  have hr' : Rely i w w' := hr
  exact ⟨hr'.fresh _ row hst hrow habs, ⟨row, (hr'.rows _ row hst).1 hrow, hst, hact⟩,
    fun hn => hr'.unsent _ row hst (visible_of_row habs hrow) (hun hn)⟩

/-- A held command that could not be moved in the database gets a shadow. -/
theorem Lost.shadow {n : Prop} {c : Command} {s : CommandState} {m : Memory}
    {l : Label Slot JsError Op.Val} (h : Lost i n c s w) (hw : (contract E).inv w)
    (hslot : c.slotId = some i.id) (hown : c.ownerId = some (SlotLoop.owner config i))
    (hs : s ≠ .available ∧ s ≠ .reserved) {now : ℕ}
    (direct : m.direct = w.mem.direct.put (HybridRepository.shadow c s now))
    (usable : m.usable = false) (calls : m.calls = w.mem.calls) (hok : ok w l ⟨m, w.remote⟩) :
    (contract E).Keeps i w ⟨m, w.remote⟩ ∧
      Moved config i n c s (HybridRepository.shadow c s now) ⟨m, w.remote⟩ := by
  obtain ⟨row, hrow, hst, hact⟩ := h.row
  have hget : ∀ k, stored? (⟨m, w.remote⟩ : ServiceWorld X) k =
      if k = c.candidateKey then some (HybridRepository.shadow c s now) else stored? w k := fun k => by
    rw [stored?, direct, CommandMap.get?_put]
    rfl
  have hafter := (hget c.candidateKey).trans (if_pos rfl)
  have hchange : Change E.Free (SlotLoop.owner config) i w ⟨m, w.remote⟩ :=
    .shadowed c.candidateKey ⟨fun k hk => (hget k).trans (if_neg hk), fun _ _ => rfl,
      fun _ _ => .rfl, fun hu => by simp [usable] at hu⟩ row _ hst h.absent hrow hafter rfl hslot
      hown hs hact rfl usable rfl
  exact ⟨hchange.keeps calls hw hok, rfl, rfl, fun ha => ⟨⟨hslot, ha⟩, hown,
    ⟨_, visible_of_entry hafter, rfl, rfl, rfl⟩, h.unsent⟩⟩

/-- A held command whose entry is missing is a row. -/
theorem Holds.lost {n : Prop} {c : Command} {s : CommandState} (h : Holds config i n c w)
    (hn : stored? w c.candidateKey = none) : Lost i n c s w := by
  obtain ⟨d, hd, hst, hslot, -⟩ := h.copy
  have hrow : row? w c.candidateKey = some d := (copy_of_visible hd).resolve_left (by simp [hn])
  exact ⟨hn, ⟨d, hrow, ⟨hslot.trans h.busy.1, hst ▸ h.busy.2.ne_available⟩,
    fun _ => hst ▸ h.busy.2⟩, h.unsent⟩

/-- The memory part of a transition. -/
theorem transitionDirect_holds (E : Extension X config ok) (i : Slot) (n : Prop) (c : Command)
    (s : CommandState) (hs : s ≠ .available ∧ s ≠ .reserved) {F : JsError → ServiceWorld X → Prop} :
    Triple (service X config) ok (contract E) i (Holds config i n c)
      (Prog.atomically fun m =>
        (((transitionDirect c s m).1, m.now), (transitionDirect c s m).2))
      (fun r w => match r.1 with
        | some c' => Moved config i n c s c' w
        | none => Lost i n c s w) F := by
  refine .atomically (holds_stable E i n c) (fun (r, now) => ?_) fun w hw h hok => ?_
  · cases r with
    | some c' => exact moved_stable E i n c s c'
    | none => exact lost_stable E i n c s
  · cases hd : stored? w c.candidateKey with
    | some stored =>
      obtain ⟨d, hvis, -, hslot, hown⟩ := h.copy
      obtain rfl : stored = d := Option.some.inj ((visible_of_entry hd).symm.trans hvis)
      have hdirect : transitionDirect c s w.mem =
          (some (moved stored c s w.mem.now), w.mem.putDirect (moved stored c s w.mem.now)) := by
        simp only [transitionDirect, show w.mem.direct.get? c.candidateKey = _ from hd]
      simp only [hdirect] at hok ⊢
      have hkey : stored.candidateKey = c.candidateKey := CommandMap.candidateKey_of_get? hd
      obtain ⟨hk, hh⟩ := h.rewrite (moved stored c s w.mem.now)
        (w.mem.putDirect (moved stored c s w.mem.now)) hw hd ⟨hslot.symm, hown.symm, hs.1, .inr hs.2⟩
        rfl rfl rfl (fun hu => hu) rfl hok (moved stored c s w.mem.now) hkey rfl rfl rfl
      exact ⟨hk, rfl, hkey, hh⟩
    | none =>
      -- Not in the map: a usable database decides, otherwise a shadow takes the place of the
      -- row.
      by_cases hu : w.mem.usable = true
      · have hdirect : transitionDirect c s w.mem = (none, w.mem) := by
          simp only [transitionDirect, show w.mem.direct.get? c.candidateKey = _ from hd, hu, if_true]
        simp only [hdirect] at hok ⊢
        exact ⟨(h.skip hw hok).1, h.lost hd⟩
      · have hdirect : transitionDirect c s w.mem =
            (some (shadow c s w.mem.now), w.mem.putDirect (shadow c s w.mem.now)) := by
          simp only [transitionDirect, show w.mem.direct.get? c.candidateKey = _ from hd, hu]
          rfl
        simp only [hdirect] at hok ⊢
        exact (h.lost hd).shadow hw h.busy.1 h.owner hs rfl (Bool.eq_false_iff.2 hu) rfl hok

/-- A request that leaves the rows and the orders alone. -/
theorem remote_keeps {r : Remote X} {l : Label Slot JsError Op.Val} (hw : (contract E).inv w)
    (hok : ok w l ⟨w.mem, r⟩) (commands : r.tables.commands = w.remote.tables.commands)
    (orders : entryKeys r.orders = entryKeys w.remote.orders) :
    (contract E).Keeps i w ⟨w.mem, r⟩ ∧ Rely i w ⟨w.mem, r⟩ := by
  have hchange : Change E.Free (SlotLoop.owner config) i w ⟨w.mem, r⟩ :=
    change_of_same rfl commands orders fun h => h
  exact ⟨hchange.keeps rfl hw hok, rely_of_change_same rfl commands orders⟩

/-- The row of a held command is moved. -/
theorem Lost.updated {n : Prop} {c row : Command} {s : CommandState} {r : Remote X} {now : ℕ}
    {l : Label Slot JsError Op.Val} (h : Lost i n c s w) (hw : (contract E).inv w)
    (hok : ok w l ⟨w.mem, r⟩) (hc : Busy i c) (howner : c.ownerId = some (SlotLoop.owner config i))
    (hs : s ≠ .available ∧ s ≠ .reserved) (hrow : row? w c.candidateKey = some row)
    (hfence : Tables.Fence row c)
    (hrows : ∀ k, r.tables.row? k =
      if k = c.candidateKey then some { row with state := s, updatedAt := now } else row? w k)
    (orders : r.orders = w.remote.orders) :
    (contract E).Keeps i w ⟨w.mem, r⟩ ∧ Lost i n c s ⟨w.mem, r⟩ ∧
      (s.Active → Holds config i n { row with state := s, updatedAt := now } ⟨w.mem, r⟩) := by
  have hkey : row.candidateKey = c.candidateKey := CommandMap.candidateKey_of_get? hrow
  have hbusy : Busy i row := ⟨hfence.2.2.1.trans hc.1, hfence.2.2.2.2 ▸ hc.2⟩
  have hafter := (hrows c.candidateKey).trans (if_pos rfl)
  have hsent : ∀ k, Sent (⟨w.mem, r⟩ : ServiceWorld X) k ↔ Sent w k := fun k => by
    unfold Sent
    rw [orders]
  have hchange : Change E.Free (SlotLoop.owner config) i w ⟨w.mem, r⟩ :=
    .updated c.candidateKey ⟨fun _ _ => rfl, fun k hk => (hrows k).trans (if_neg hk),
      fun k _ => hsent k, fun h => h⟩ row _ hbusy h.absent hrow hafter ⟨rfl, rfl, hs.1, .inr hs.2⟩
      h.absent (congrArg entryKeys orders)
  have hun : n → ¬Sent (⟨w.mem, r⟩ : ServiceWorld X) c.candidateKey := fun hn =>
    (hsent _).not.2 (h.unsent hn)
  -- `Lost` survives the update: the caller may not have seen its answer.
  refine ⟨hchange.keeps rfl hw hok, ⟨h.absent, ⟨_, hafter, ⟨hbusy.1, hs.1⟩, fun ha => ha⟩, hun⟩,
    fun ha => ⟨⟨hbusy.1, ha⟩, hfence.1.trans howner, ⟨_, ?_, rfl, rfl, rfl⟩, ?_⟩⟩
  · exact visible_of_row (hkey ▸ h.absent) ((hrows _).trans (if_pos hkey))
  · exact hkey ▸ hun

/-- The row of a held command, moved by the database. -/
theorem updateState_holds (E : Extension X config ok) (i : Slot) (n : Prop) (c : Command)
    (s : CommandState) (now : ℕ) (hc : Busy i c)
    (howner : c.ownerId = some (SlotLoop.owner config i)) (hs : s ≠ .available ∧ s ≠ .reserved)
    (edge : s ∈ CommandState.TRANSITIONS c.state) :
    Triple (service X config) ok (contract E) i (Lost i n c s)
      (database (.updateState c s edge now))
      (fun r w => match r with
        | some row => row.state = s ∧ row.candidateKey = c.candidateKey ∧
          (s.Active → Holds config i n row w)
        | none => Lost i n c s w) fun _ => Lost i n c s := by
  have lost := lost_stable E i n c s
  refine .request lost (fun r => ?_) (fun _ => lost) fun w a r hw h ha hok => ?_
  · cases r with
    | some row => exact fun w w' hr hi h => ⟨h.1, h.2.1, fun ha =>
        holds_stable E i n row w w' hr hi (h.2.2 ha)⟩
    | none => exact lost
  obtain ⟨out, rfl, rfl⟩ := ha
  obtain ⟨hnone, -⟩ | ⟨row, updated, hrow, hfence, rfl, hsome, hrows⟩ :=
    w.remote.tables.updateState_cases c s edge now
  · -- The fence refused: the tables are as they were, whatever the answer.
    have same : ((DbOp.updateState c s edge now).answer out w.remote.tables).2 =
        w.remote.tables := by
      cases out with
      | done locked => exact congrArg Prod.snd hnone
      | lost reason => rfl
      | unacknowledged locked reason => exact congrArg Prod.snd hnone
    obtain ⟨hk, hr⟩ := remote_keeps (i := i) hw hok (congrArg Tables.commands same) rfl
    refine ⟨hk, ?_⟩
    cases out with
    | done locked =>
      have hval : ((DbOp.updateState c s edge now).answer (.done locked) w.remote.tables).1 =
          .ok none := congrArg Except.ok (congrArg Prod.fst hnone)
      simp only [hval]
      exact lost _ _ hr hk.inv h
    | lost reason => exact lost _ _ hr hk.inv h
    | unacknowledged locked reason => exact lost _ _ hr hk.inv h
  · -- The row moved. A lost request did not reach it, a lost answer only hides it.
    cases out with
    | lost reason =>
      obtain ⟨hk, hr⟩ := remote_keeps (i := i) hw hok rfl rfl
      exact ⟨hk, lost _ _ hr hk.inv h⟩
    | done locked =>
      obtain ⟨hk, -, hh⟩ := h.updated hw hok hc howner hs hrow hfence hrows rfl
      refine ⟨hk, ?_⟩
      have hval : ((DbOp.updateState c s edge now).answer (.done locked) w.remote.tables).1 =
          .ok (some _) := congrArg Except.ok hsome
      simp only [hval]
      exact ⟨trivial, CommandMap.candidateKey_of_get? hrow, hh⟩
    | unacknowledged locked reason =>
      obtain ⟨hk, hl, -⟩ := h.updated hw hok hc howner hs hrow hfence hrows rfl
      exact ⟨hk, hl⟩

theorem databaseTransition_holds (E : Extension X config ok) (i : Slot) (n : Prop) (c : Command)
    (s : CommandState) (now : ℕ) (hc : Busy i c)
    (howner : c.ownerId = some (SlotLoop.owner config i)) (hs : s ≠ .available ∧ s ≠ .reserved) :
    Triple (service X config) ok (contract E) i (Lost i n c s)
      (ExecutionRepository.transition c s now) (Moved config i n c s) fun _ => Lost i n c s := by
  unfold ExecutionRepository.transition
  split
  · rename_i edge
    refine .bind (updateState_holds E i n c s now hc howner hs edge) fun r => ?_
    cases r with
    | some row => exact .done_ok (moved_stable E i n c s row) fun _ _ h => h
    | none => exact .done_error (lost_stable E i n c s) fun _ _ h => h
  · exact .done_error (lost_stable E i n c s) fun _ _ h => h

theorem usable_degrade (m : Memory) (message : String) (command : Command) :
    ((m.degrade message).putDirect command).usable = false := by
  simp [Memory.usable, Memory.degrade, Memory.putDirect]

/-- A held command is moved, or gets a shadow: in any case, the slot goes on with it in its
    next state. -/
theorem transition_holds (E : Extension X config ok) (i : Slot) (n : Prop) (c : Command)
    (s : CommandState) (hs : s ≠ .available ∧ s ≠ .reserved)
    {F : JsError → ServiceWorld X → Prop} :
    Triple (service X config) ok (contract E) i (Holds config i n c) (transition c s)
      (Moved config i n c s) F := by
  refine .of_forall fun w₀ _ h₀ => ?_
  have hc := h₀.busy
  have howner := h₀.owner
  refine .bind (transitionDirect_holds E i n c s hs) fun (direct, now) => ?_
  cases direct with
  | some c' => exact .done_ok (moved_stable E i n c s c') fun _ _ h => h
  | none =>
    refine .handle (.bind (databaseTransition_holds E i n c s now hc howner hs) fun row => ?_)
      fun e => ?_
    · exact .done_ok (moved_stable E i n c s _) fun _ _ h => ⟨h.1, h.2.1, fun ha =>
        ⟨(h.2.2 ha).busy, (h.2.2 ha).owner, (h.2.2 ha).copy, (h.2.2 ha).unsent⟩⟩
    · exact .atomically (lost_stable E i n c s) (moved_stable E i n c s) fun w hw h hok =>
        h.shadow hw hc.1 howner hs rfl (usable_degrade _ _ _) rfl hok

end

end IntradayBot.Node
