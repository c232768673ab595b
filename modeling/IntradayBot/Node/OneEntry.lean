import IntradayBot.Node.Unopened

/-!
# One entry for each symbol

The exchange shows an entry, as a position or as an active order, only after it accepted it
(`entryExchange`). A slot sizes its candidate against the positions that it was shown, and only
then, several awaits later, sends the order. What another slot sent in between, or what the
positions did not show yet, is *unseen* to it (`LiveEntry.unseen`).

The checks of the sizing keep the live entries apart (`EntriesApart`: one for each symbol, no
more than `maxActiveTrades`) along every run in which each entry is accepted clear of those
that its slot has not seen (`SentClear`), and an entry accepted otherwise breaks them at once
(`entries_apart`). Two slots that size two candidates of one symbol before either order is sent
both send theirs (`entries_not_apart`).
-/

namespace IntradayBot.Node

open Coop LiveSizer

/-! ## The exchange -/

/-- An entry that was accepted and is not closed. -/
structure LiveEntry where
  order : OrderRequest
  /-- The positions last shown to the slot leave it out. -/
  unseen : Slot → Bool

namespace LiveEntry

/-- The symbol of an entry. -/
def symbol (entry : LiveEntry) : String := entry.order.symbol

/-- The entry, once slot `i` was shown the positions, with it among them or not. -/
def lookedAt (entry : LiveEntry) (i : Slot) (shown : Bool) : LiveEntry :=
  { entry with unseen := Function.update entry.unseen i (!shown) }

@[simp] theorem lookedAt_symbol (entry : LiveEntry) (i : Slot) (shown : Bool) :
    (entry.lookedAt i shown).symbol = entry.symbol := rfl

@[simp] theorem lookedAt_unseen (entry : LiveEntry) (i j : Slot) (shown : Bool) :
    (entry.lookedAt i shown).unseen j = if j = i then !shown else entry.unseen j :=
  Function.update_apply _ _ _ _

end LiveEntry

namespace OneEntry

/-- The symbols of the open positions of an answer. -/
def openSymbols (rows : List PositionRow) : List String :=
  (rows.filter PositionRow.isOpen).map fun row => Json.toText row.symbol

/-- The row of an entry order that is active. -/
def isActiveEntry (row : OrderRow) : Bool :=
  Json.textOrEmpty row.orderStatus ∈ ["New", "PartiallyFilled", "Untriggered", "Created"] &&
    !(Json.isTrue row.reduceOnly || (Json.textOrEmpty row.reduceOnly).toLower = "true")

/-- An entry that was just accepted: nobody has seen it. -/
def accepted (order : OrderRequest) : LiveEntry := ⟨order, fun _ => true⟩

/-- The entries once `shown` of them were shown to slot `i`. -/
def look (i : Slot) (shown : LiveEntry → Bool) (entries : List LiveEntry) : List LiveEntry :=
  entries.map fun entry => entry.lookedAt i (shown entry)

/-- How a request of slot `i` may be answered, and the entries after it. An entry may be
    accepted whatever is answered, and none is shown before. -/
def Answers (i : Slot) : (o : BybitOp) → List LiveEntry → Except JsError o.Val →
    List LiveEntry → Prop
  | .createOrder request, entries, a, entries' =>
    (entries' = entries ∧ (request.reduceOnly = true ∨ ∃ e, a = .error e)) ∨
      (request.reduceOnly = false ∧ entries' = accepted request :: entries)
  | .positions, entries, .ok rows, entries' => ∃ shown, entries' = look i shown entries ∧
      ∀ s, s ∈ openSymbols rows ↔ ∃ entry ∈ entries, shown entry = true ∧ entry.symbol = s
  | .position symbol, entries, .ok rows, entries' => entries' = entries ∧
      ∀ row ∈ rows, row.isOpen = true → ∃ entry ∈ entries, entry.symbol = symbol
  | .activeOrders symbol, entries, .ok rows, entries' => entries' = entries ∧
      ∀ row ∈ rows, isActiveEntry row = true → ∃ entry ∈ entries,
        entry.symbol = symbol ∧ row.orderLinkId = some entry.order.orderLinkId
  | _, entries, _, entries' => entries' = entries

/-- The exchange: what happens there is that entries are closed. -/
def entryExchange : ExchangeModel where
  State := List LiveEntry
  respond := Answers
  step entries entries' := entries'.Sublist entries

variable {config : Config} {i j : Slot} {w w' : ServiceWorld entryExchange}

/-- The entries of a world. -/
abbrev entriesOf (w : ServiceWorld entryExchange) : List LiveEntry := w.remote.exchange

/-- What a request may do to the entries: it shows them, or it opens one. -/
theorem entries_cases {o : Op} {a : Except JsError o.Val} {r : Remote entryExchange}
    (h : (service entryExchange config).respond i o w a r) :
    r.exchange = entriesOf w ∨
      (∃ shown, o = .bybit .positions ∧ r.exchange = look i shown (entriesOf w)) ∨
      ∃ request, o = .bybit (.createOrder request) ∧ request.reduceOnly = false ∧
        r.exchange = accepted request :: entriesOf w := by
  rcases o with o | o | _ | _ | _
  · obtain ⟨out, -, rfl⟩ := h
    exact .inl rfl
  · obtain ⟨s, hs, rfl⟩ := h
    change s = _ ∨ (∃ shown, _ ∧ s = _) ∨ ∃ request, _ ∧ _ ∧ s = _
    cases o with
    | createOrder request =>
      rcases hs with ⟨rfl, -⟩ | ⟨hopens, rfl⟩
      · exact .inl rfl
      · exact .inr (.inr ⟨request, rfl, hopens, rfl⟩)
    | positions =>
      rcases a with e | rows
      · exact .inl hs
      · obtain ⟨shown, rfl, -⟩ := hs
        exact .inr (.inl ⟨shown, rfl, rfl⟩)
    | position symbol =>
      rcases a with e | rows
      · exact .inl hs
      · exact .inl hs.1
    | activeOrders symbol =>
      rcases a with e | rows
      · exact .inl hs
      · exact .inl hs.1
    | _ => exact .inl hs
  · obtain ⟨-, rfl⟩ := h
    exact .inl rfl
  · obtain ⟨-, rfl⟩ := h
    exact .inl rfl
  · obtain ⟨-, rfl⟩ := h
    exact .inl rfl

/-! ## What a slot was shown -/

/-- The symbols of the entries that slot `i` was shown. -/
def shownTo (i : Slot) (entries : List LiveEntry) : List String :=
  (entries.filter fun entry => !entry.unseen i).map LiveEntry.symbol

theorem map_symbol_look (shown : LiveEntry → Bool) (entries : List LiveEntry) :
    (look i shown entries).map LiveEntry.symbol = entries.map LiveEntry.symbol := by
  rw [look, List.map_map]
  rfl

@[simp] theorem shownTo_accepted (request : OrderRequest) (entries : List LiveEntry) :
    shownTo i (accepted request :: entries) = shownTo i entries := rfl

/-- Looking tells a slot which entries are shown… -/
theorem shownTo_look (shown : LiveEntry → Bool) (entries : List LiveEntry) :
    shownTo i (look i shown entries) = (entries.filter shown).map LiveEntry.symbol := by
  have hseen : ((fun entry : LiveEntry => !entry.unseen i) ∘ fun entry =>
      entry.lookedAt i (shown entry)) = shown := by
    funext entry
    simp
  rw [shownTo, look, List.filter_map, List.map_map, hseen]
  rfl

/-- … and the others nothing. -/
theorem shownTo_look_of_ne (h : j ≠ i) (shown : LiveEntry → Bool) (entries : List LiveEntry) :
    shownTo j (look i shown entries) = shownTo j entries := by
  have hseen : ((fun entry : LiveEntry => !entry.unseen j) ∘ fun entry =>
      entry.lookedAt i (shown entry)) = fun entry : LiveEntry => !entry.unseen j := by
    funext entry
    simp [h]
  rw [shownTo, look, List.filter_map, List.map_map, hseen]
  rfl

theorem shownTo_sublist_symbols (i : Slot) (entries : List LiveEntry) :
    (shownTo i entries).Sublist (entries.map LiveEntry.symbol) :=
  List.filter_sublist.map _

theorem shownTo_sublist {entries entries' : List LiveEntry} (h : entries'.Sublist entries)
    (i : Slot) : (shownTo i entries').Sublist (shownTo i entries) :=
  (h.filter _).map _

/-! ## Entries apart -/

/-- One entry for each symbol, and no more than the configuration allows. -/
structure EntriesApart (config : Config) (entries : List LiveEntry) : Prop where
  one_each : (entries.map LiveEntry.symbol).Nodup
  bounded : entries.length ≤ config.maxActiveTrades

theorem EntriesApart.of_symbols {entries entries' : List LiveEntry}
    (h : EntriesApart config entries)
    (hs : (entries'.map LiveEntry.symbol).Sublist (entries.map LiveEntry.symbol)) :
    EntriesApart config entries' :=
  ⟨h.one_each.sublist hs, by simpa using hs.length_le.trans (by simpa using h.bounded)⟩

/-- The checks of the sizing, made of the entries that slot `i` was shown. -/
structure Room (config : Config) (i : Slot) (symbol : String) (entries : List LiveEntry) :
    Prop where
  absent : symbol ∉ shownTo i entries
  free : (shownTo i entries).length < config.maxActiveTrades

theorem Room.of_sublist {symbol : String} {entries entries' : List LiveEntry}
    (h : Room config i symbol entries)
    (hs : (shownTo i entries').Sublist (shownTo i entries)) : Room config i symbol entries' :=
  ⟨fun hm => h.absent (hs.subset hm), hs.length_le.trans_lt h.free⟩

/-- The entries that slot `i` has not seen are of other symbols, and leave room for one more,
    if there are any. -/
def Clear (config : Config) (i : Slot) (symbol : String) (entries : List LiveEntry) : Prop :=
  (∀ entry ∈ entries, entry.unseen i = true → entry.symbol ≠ symbol) ∧
    ((∃ entry ∈ entries, entry.unseen i = true) → entries.length < config.maxActiveTrades)

instance (config : Config) (i : Slot) (symbol : String) (entries : List LiveEntry) :
    Decidable (Clear config i symbol entries) :=
  inferInstanceAs (Decidable (_ ∧ _))

/-- An entry that has room among the entries shown, and is clear of the others, is apart. -/
theorem EntriesApart.accept {request : OrderRequest} {entries : List LiveEntry}
    (h : EntriesApart config entries) (hroom : Room config i request.symbol entries)
    (hclear : Clear config i request.symbol entries) :
    EntriesApart config (accepted request :: entries) := by
  refine ⟨List.nodup_cons.2 ⟨fun hm => ?_, h.one_each⟩, ?_⟩
  · obtain ⟨entry, hentry, hsymbol⟩ := List.mem_map.1 hm
    by_cases hseen : entry.unseen i = true
    · exact hclear.1 entry hentry hseen hsymbol
    · refine hroom.absent (List.mem_map.2 ⟨entry, List.mem_filter.2 ⟨hentry, ?_⟩, hsymbol⟩)
      simpa using hseen
  · by_cases hunseen : ∃ entry ∈ entries, entry.unseen i = true
    · exact hclear.2 hunseen
    · -- all of them were shown, and counted
      have hall : entries.filter (fun entry => !entry.unseen i) = entries :=
        List.filter_eq_self.2 fun entry hentry => by
          simpa using fun h => hunseen ⟨entry, hentry, h⟩
      exact Nat.succ_le_of_lt (by simpa [shownTo, hall] using hroom.free)

/-- An entry that is not clear of the others is not apart. -/
theorem not_apart_of_not_clear {request : OrderRequest} {entries : List LiveEntry}
    (h : ¬Clear config i request.symbol entries) :
    ¬EntriesApart config (accepted request :: entries) := by
  intro hapart
  refine h ⟨fun entry hentry _ hsymbol => ?_, fun _ => hapart.bounded⟩
  exact (List.nodup_cons.1 hapart.one_each).1 (List.mem_map.2 ⟨entry, hentry, hsymbol⟩)

/-- The order that a step sends, and who sends it. -/
def sentBy : Label Slot JsError Op.Val → Option (Slot × OrderRequest)
  | .call i (.bybit (.createOrder request)) _ => some (i, request)
  | _ => none

/-- An entry that the step opens is clear of those that its slot has not seen. -/
def SentClear (config : Config) (w : ServiceWorld entryExchange) (l : Label Slot JsError Op.Val)
    (w' : ServiceWorld entryExchange) : Prop :=
  ∀ sent ∈ sentBy l, (entriesOf w).length < (entriesOf w').length →
    Clear config sent.1 sent.2.symbol (entriesOf w)

instance (config : Config) (w : ServiceWorld entryExchange) (l : Label Slot JsError Op.Val)
    (w' : ServiceWorld entryExchange) : Decidable (SentClear config w l w') :=
  inferInstanceAs (Decidable (∀ sent ∈ sentBy l, _ → _))

/-! ## The contract -/

/-- The entries stay apart, and nothing comes to be shown to a slot but what it asked for. -/
def entriesContract (config : Config) : Contract Slot Memory (Remote entryExchange) where
  inv w := EntriesApart config (entriesOf w)
  rely i w w' := (shownTo i (entriesOf w')).Sublist (shownTo i (entriesOf w))
  step _ _ := True
  rely_refl _ _ := .refl _
  rely_trans _ _ _ _ h₁ h₂ := h₂.trans h₁
  step_refl _ := trivial

abbrev EntryCondition := Condition Slot Memory (Remote entryExchange) JsError Op.Val

/-- Where the entries stay as they are, so does all that is known of them. -/
theorem keeps_of_eq (hw : (entriesContract config).inv w) (h : entriesOf w' = entriesOf w) :
    (entriesContract config).Keeps i w w' ∧ (entriesContract config).rely i w w' := by
  have hrely : ∀ j, (entriesContract config).rely j w w' := fun j => by
    change (shownTo j (entriesOf w')).Sublist _
    rw [h]
  refine ⟨⟨?_, fun j _ => hrely j, trivial⟩, hrely i⟩
  change EntriesApart config (entriesOf w')
  rwa [h]

/-- A request that neither shows positions nor sends an order. -/
def Still : Op → Prop
  | .bybit .positions | .bybit (.createOrder _) => False
  | _ => True

theorem calm_still (ok : EntryCondition) (i : Slot) :
    Calm (service entryExchange config) ok (entriesContract config) i (fun _ => True) Still where
  sync _ _ _ hw _ := keeps_of_eq hw rfl
  call o w a r ho hw ha _ := by
    rcases entries_cases ha with h | ⟨shown, rfl, -⟩ | ⟨request, rfl, -⟩
    · exact keeps_of_eq hw h
    · exact ho.elim
    · exact ho.elim

/-- What opens no entry keeps the contract. -/
theorem unopened_runs {α : Type} {ok : EntryCondition} {p : Proc α}
    (hp : p.All (fun _ => True) Unopened) :
    SlotRules.Runs config ok (entriesContract config) i (fun _ => True) p := by
  refine .all hp (fun _ _ _ _ _ => trivial) (fun f w _ hw _ hok => ?_)
    fun o w a r ho hw _ ha _ => ⟨?_, trivial⟩
  · exact ⟨((calm_still ok i).sync f w trivial hw hok).1, trivial⟩
  rcases entries_cases ha with h | ⟨shown, rfl, h⟩ | ⟨request, rfl, hopens, h⟩
  · exact (keeps_of_eq hw h).1
  · -- the positions are shown to this slot only
    refine ⟨?_, fun j hj => ?_, trivial⟩
    · refine EntriesApart.of_symbols hw ?_
      change (r.exchange.map LiveEntry.symbol).Sublist _
      rw [h, map_symbol_look]
    · change (shownTo j r.exchange).Sublist _
      rw [h, shownTo_look_of_ne hj]
  · exact absurd (hopens.symm.trans ho) Bool.false_ne_true

/-! ## Before the order -/

theorem recordOrder_still (command : Command) (status : String) :
    (HybridRepository.recordOrder command status).All (fun _ => True) Still :=
  HybridRepository.all_of_toDatabase (fun _ => trivial)
    (HybridRepository.recordOrder_toDatabase _ _)

theorem transition_still (command : Command) (nextState : CommandState) :
    (HybridRepository.transition command nextState).All (fun _ => True) Still :=
  HybridRepository.all_of_toDatabase (fun _ => trivial)
    (HybridRepository.transition_toDatabase _ _)

theorem addReservedRows_still (candidateKey : String) (amount : Option ℚ) (usable : Bool) :
    (HybridRepository.addReservedRows candidateKey amount usable).All (fun _ => True) Still := by
  rw [HybridRepository.addReservedRows]
  split
  · exact .bind (HybridRepository.all_orDegrade (fun _ => trivial) (.request trivial)) fun _ => .ret _
  · exact .ret _

/-- A candidate with a plan has no position in the truth that it was made from, and room for one. -/
theorem room_of_plan {payload plan : Json} {truth : Truth} {nowSeconds : ℕ}
    (h : buildLiveExecutionPlan payload truth config nowSeconds = .ok plan) :
    Executor.symbolOf payload ∉ openSymbols truth.positions ∧
      (openSymbols truth.positions).length < config.maxActiveTrades := by
  obtain ⟨wallet, -, h⟩ := bind_eq_ok.1 h
  obtain ⟨instrument, -, h⟩ := bind_eq_ok.1 h
  obtain ⟨ticker, -, h⟩ := bind_eq_ok.1 h
  obtain ⟨_, -, h⟩ := bind_eq_ok.1 h
  obtain ⟨_, -, h⟩ := bind_eq_ok.1 h
  obtain ⟨equity, -, h⟩ := bind_eq_ok.1 h
  obtain ⟨available, -, h⟩ := bind_eq_ok.1 h
  obtain ⟨mark, -, h⟩ := bind_eq_ok.1 h
  obtain ⟨entryReference, -, h⟩ := bind_eq_ok.1 h
  obtain ⟨_, -, h⟩ := bind_eq_ok.1 h
  obtain ⟨_, hexposure, -⟩ := bind_eq_ok.1 h
  -- of the three checks of the exposure, the first two are about the positions
  obtain ⟨_, hother, hexposure⟩ := bind_eq_ok.1 hexposure
  obtain ⟨_, hroom, -⟩ := bind_eq_ok.1 hexposure
  rw [await_eq_ok] at hother hroom
  have hopen : (truth.positions.filter PositionRow.isOpen).Sublist (openPositions truth) :=
    List.monotone_filter_right _ fun row => Bool.le_iff_imp.2 Json.toLimit_pos
  refine ⟨fun hm => ?_, ?_⟩
  · obtain ⟨row, hrow, hsymbol⟩ := List.mem_map.1 hm
    exact hother row (hopen.mem hrow) hsymbol
  · rw [openSymbols, List.length_map]
    exact hopen.length_le.trans_lt hroom

/-- A plan is for the symbol of its candidate. -/
theorem symbolOf_plan {payload plan : Json} {truth : Truth} {nowSeconds : ℕ}
    (h : buildLiveExecutionPlan payload truth config nowSeconds = .ok plan) :
    Executor.symbolOf plan = Executor.symbolOf payload := by
  obtain ⟨x, -, rfl⟩ := buildLiveExecutionPlan_eq_ok h
  rw [Executor.symbolOf, Executor.symbolOf, get_symbol_sized]

/-- The positions of a truth are those that the slot was shown last. -/
def Truthful (i : Slot) (positions : List PositionRow) (w : ServiceWorld entryExchange) : Prop :=
  (shownTo i (entriesOf w)).Subperm (openSymbols positions)

theorem stable_truthful (positions : List PositionRow) :
    (entriesContract config).Stable i (Truthful i positions) :=
  fun _ _ hr _ h => hr.subperm.trans h

theorem stable_room (symbol : String) :
    (entriesContract config).Stable i fun w => Room config i symbol (entriesOf w) :=
  fun _ _ hr _ h => h.of_sublist hr

/-- The positions that a slot asks for are what it is shown. -/
theorem positions_truthful (ok : EntryCondition) :
    Triple (service entryExchange config) ok (entriesContract config) i (fun _ => True)
      (bybit .positions) (fun rows => Truthful i rows) fun _ _ => True := by
  have always : (entriesContract config).Stable i fun _ => True := fun _ _ _ _ _ => trivial
  refine .request always stable_truthful (fun _ => always) fun w a r hw _ ha _ => ?_
  obtain ⟨entries, hs, rfl⟩ := ha
  rcases a with e | rows
  · obtain rfl : entries = entriesOf w := hs
    exact ⟨(keeps_of_eq hw rfl).1, trivial⟩
  · obtain ⟨shown, rfl, hrows⟩ := hs
    have hapart : EntriesApart config (look i shown (entriesOf w)) :=
      EntriesApart.of_symbols hw (map_symbol_look shown (entriesOf w) ▸ .refl _)
    refine ⟨⟨hapart, fun j hj => ?_, trivial⟩, ?_⟩
    · change (shownTo j (look i shown (entriesOf w))).Sublist _
      rw [shownTo_look_of_ne hj]
    · -- one open position for each entry shown, whose symbols differ
      refine List.subperm_of_subset (hapart.one_each.sublist (shownTo_sublist_symbols _ _)) ?_
      change shownTo i (look i shown (entriesOf w)) ⊆ openSymbols rows
      rw [shownTo_look]
      intro s hs
      obtain ⟨entry, hentry, hsymbol⟩ := List.mem_map.1 hs
      obtain ⟨hmem, hshown⟩ := List.mem_filter.1 hentry
      exact (hrows s).2 ⟨entry, hmem, hshown, hsymbol⟩

variable {ok : EntryCondition} {command : Command} {payload : Json} {linkId : LinkId}

/-- What the positions show is not lost by a calm program on their right… -/
theorem truthful_left {α β : Type} {p : Proc α} {q : Proc β} {positions : α → List PositionRow}
    (hq : q.All (fun _ => True) Still)
    (hp : Triple (service entryExchange config) ok (entriesContract config) i (fun _ => True) p
      (fun a => Truthful i (positions a)) fun _ _ => True) :
    Triple (service entryExchange config) ok (entriesContract config) i (fun _ => True) (both p q)
      (fun c => Truthful i (positions c.1)) fun _ _ => True :=
  (calm_still ok i).beside_right (Q := fun a => Truthful i (positions a)) trivial hq
    (fun _ => stable_truthful _) hp

/-- … nor by one on their left. -/
theorem truthful_right {α β : Type} {p : Proc α} {q : Proc β} {positions : β → List PositionRow}
    (hp : p.All (fun _ => True) Still)
    (hq : Triple (service entryExchange config) ok (entriesContract config) i (fun _ => True) q
      (fun b => Truthful i (positions b)) fun _ _ => True) :
    Triple (service entryExchange config) ok (entriesContract config) i (fun _ => True) (both p q)
      (fun c => Truthful i (positions c.2)) fun _ _ => True :=
  (calm_still ok i).beside_left (R := fun b => Truthful i (positions b)) trivial hp
    (fun _ => stable_truthful _) hq

theorem liveTruth_truthful :
    Triple (service entryExchange config) ok (entriesContract config) i (fun _ => True)
      (Executor.liveTruth config command payload linkId)
      (fun truth => Truthful i truth.positions) fun _ _ => True := by
  refine .bind (Q := fun _ _ => True) ((calm_still ok i).triple (.read _ trivial)
    fun _ _ _ _ _ => trivial) fun (amount, usable) => ?_
  -- the positions are asked for beside six requests that are calm
  have hrows : Triple (service entryExchange config) ok (entriesContract config) i (fun _ => True)
      (bybit .positions) (fun rows => Truthful i rows) fun _ _ => True := positions_truthful ok
  have hpositions := truthful_left (q := both (bybit (.activeOrders (Executor.symbolOf payload))) <|
    both (bybit (.klines (Executor.symbolOf payload) (max 80 (config.structureLookback + 10)))) <|
    HybridRepository.addReservedRows command.candidateKey amount usable)
    (.par trivial (.request trivial) (.par trivial (.request trivial) (addReservedRows_still _ _ _)))
    hrows
  have hticker := truthful_right (p := bybit (.ticker (Executor.symbolOf payload)))
    (.request trivial) hpositions
  have hinstrument := truthful_right (p := bybit (.instrument (Executor.symbolOf payload)))
    (.request trivial) hticker
  have hwallet := truthful_right (p := bybit .wallet) (.request trivial) hinstrument
  exact .bind hwallet fun _ => .done_ok (stable_truthful _) fun _ _ h => h

/-- A candidate that is sized has room among the entries that its slot was shown. -/
theorem prepareLiveExecution_room :
    Triple (service entryExchange config) ok (entriesContract config) i (fun _ => True)
      (Executor.prepareLiveExecution config command payload linkId)
      (fun sized w => Room config i (Executor.symbolOf sized) (entriesOf w)) fun _ _ => True := by
  have calm : Calm (service entryExchange config) ok (entriesContract config) i _ Still :=
    calm_still ok i
  have always : (entriesContract config).Stable i fun _ => True := fun _ _ _ _ _ => trivial
  refine .bind (Q := fun _ _ => True) (calm.triple (.ofExcept _) always) fun _ => ?_
  refine .bind liveTruth_truthful fun truth => ?_
  refine .bind ((calm.triple (.read _ trivial) (stable_truthful truth.positions)).conseq
    (fun _ _ h => h) (fun _ _ _ h => h) fun _ _ _ _ => trivial) fun nowSeconds => ?_
  rw [Prog.ofExcept]
  rcases hplan : buildLiveExecutionPlan payload truth config nowSeconds with e | sized
  · exact .done_error always fun _ _ _ => trivial
  · refine .done_ok (stable_room _) fun w _ h => ?_
    obtain ⟨habsent, hfree⟩ := room_of_plan hplan
    rw [symbolOf_plan hplan]
    exact ⟨fun hm => habsent (h.subset hm), h.length_le.trans_lt hfree⟩

/-- A candidate whose order is to be sent has room. -/
def RoomFor (config : Config) (i : Slot) : Executor.Pending → ServiceWorld entryExchange → Prop
  | .recovered _, _ => True
  | .sized _ payload, w => Room config i (Executor.symbolOf payload) (entriesOf w)

theorem stable_roomFor (pending : Executor.Pending) :
    (entriesContract config).Stable i (RoomFor config i pending) := by
  rcases pending with c | ⟨c, payload⟩
  · exact fun _ _ _ _ _ => trivial
  · exact stable_room _

theorem prepare_room :
    Triple (service entryExchange config) ok (entriesContract config) i (fun _ => True)
      (Executor.prepare config command linkId) (RoomFor config i) fun _ _ => True := by
  have aside : ∀ {α : Type} {p : Proc α}, p.All (fun _ => True) Executor.Aside →
      SlotRules.Runs config ok (entriesContract config) i (fun _ => True) p := fun h =>
    unopened_runs (unopened_of_aside h)
  refine .bind (aside (Executor.hasExchangeEvidence_aside _ _)) fun evidence => ?_
  split
  · refine .bind (aside (Executor.transition_aside _ _)) fun c =>
      .bind (aside (Executor.recordOrder_aside _ _)) fun _ => ?_
    exact .done_ok (stable_roomFor _) fun _ _ _ => trivial
  · refine .bind prepareLiveExecution_room fun payload => ?_
    refine .bind ((aside (Executor.ensureAccountSettings_aside _ _ _)).conseq
      (fun _ _ _ => trivial) (fun _ _ _ h => h) fun _ _ _ h => h) fun _ => ?_
    -- it is the second sizing that counts: what follows it is calm
    refine .bind prepareLiveExecution_room fun payload => ?_
    have still : ∀ {α : Type} {p : Proc α}, p.All (fun _ => True) Still →
        Triple (service entryExchange config) ok (entriesContract config) i
          (fun w => Room config i (Executor.symbolOf payload) (entriesOf w)) p
          (fun _ w => Room config i (Executor.symbolOf payload) (entriesOf w)) fun _ _ => True :=
      fun h => ((calm_still ok i).triple h (stable_room _)).conseq (fun _ _ h => h)
        (fun _ _ _ h => h) fun _ _ _ _ => trivial
    refine .bind (still (.atomically trivial)) fun c =>
      .bind (still (recordOrder_still _ _)) fun _ => .bind (still (transition_still _ _)) fun c => ?_
    exact .done_ok (stable_roomFor (.sized c payload)) fun _ _ h => h

/-! ## The order -/

/-- An entry order is only accepted where it is apart. -/
theorem entry_sent :
    SlotRules.Runs config (SentClear config) (entriesContract config) i
      (fun w => Room config i (Executor.symbolOf payload) (entriesOf w))
      (bybit (.createOrder (Executor.entryOrder payload linkId))) := by
  have always : (entriesContract config).Stable i fun _ => True := fun _ _ _ _ _ => trivial
  refine .request (stable_room _) (fun _ => always) (fun _ => always)
    fun w a r hw hroom ha hclear => ⟨?_, by cases a <;> trivial⟩
  rcases entries_cases ha with h | ⟨shown, ho, -⟩ | ⟨request, ho, -, h⟩
  · exact (keeps_of_eq hw h).1
  · cases ho
  · obtain rfl := BybitOp.createOrder.inj (Op.bybit.inj ho)
    replace hclear := hclear _ rfl (by
      change _ < r.exchange.length
      rw [h]
      exact Nat.lt_succ_self _)
    refine ⟨?_, fun j _ => ?_, trivial⟩
    · change EntriesApart config r.exchange
      rw [h]
      exact EntriesApart.accept hw hroom hclear
    · -- nobody has seen the entry yet
      change (shownTo j r.exchange).Sublist _
      rw [h, shownTo_accepted]

theorem submit_runs :
    SlotRules.Runs config (SentClear config) (entriesContract config) i
      (fun w => Room config i (Executor.symbolOf payload) (entriesOf w))
      (Executor.submit command payload linkId) := by
  refine SlotRules.runs_bind (.attempt (R := fun _ _ => True) (E := fun _ _ => True) entry_sent)
    fun answer => unopened_runs (unopened_of_aside ?_)
  rcases answer with (message | ⟨code, message, retryable⟩ | ⟨code, message⟩) | orderId
  · exact .bind (Executor.recordOrder_aside _ _).attempt fun _ => .throw _
  · exact .bind (Executor.recordOrder_aside _ _).attempt fun _ => .throw _
  · exact .bind (Executor.recordOrder_aside _ _).attempt fun _ => Executor.transition_aside _ _
  · dsimp only
    split
    · exact .bind (Executor.recordOrder_aside _ _) fun _ => .throw _
    · exact .bind (Executor.recordOrder_aside _ _) fun _ => Executor.resolvePending_aside _ _ _

theorem execute_runs :
    SlotRules.Runs config (SentClear config) (entriesContract config) i (fun _ => True)
      (Executor.execute config command) := by
  have aside : ∀ {p : Proc Command}, p.All (fun _ => True) Executor.Aside →
      SlotRules.Runs config (SentClear config) (entriesContract config) i (fun _ => True) p :=
    fun h => unopened_runs (unopened_of_aside h)
  refine SlotRules.runs_bind (Q := fun _ _ => True) (E := fun _ _ => True)
    (unopened_runs (.ofExcept _)) fun _ => ?_
  dsimp only
  split
  · exact aside (Executor.resolvePending_aside _ _ _)
  · refine SlotRules.runs_bind (.attempt (E := fun _ _ => True) (R := fun r w => ∀ pending,
      r = .ok pending → RoomFor config i pending w) (prepare_room.conseq (fun _ _ h => h) ?_ ?_))
      fun r => ?_
    · intro pending w _ h _ hpending
      exact Except.ok.inj hpending ▸ h
    · intro e w _ _ pending hpending
      cases hpending
    · rcases r with error | pending | ⟨c, payload⟩
      · exact (aside (Executor.blocked_aside _ _)).conseq (fun _ _ _ => trivial)
          (fun _ _ _ h => h) fun _ _ _ h => h
      · exact (aside (Executor.resolvePending_aside _ _ _)).conseq (fun _ _ _ => trivial)
          (fun _ _ _ h => h) fun _ _ _ h => h
      · exact submit_runs.conseq (fun _ _ h => h _ rfl) (fun _ _ _ h => h) fun _ _ _ h => h
  · exact SlotRules.runs_done _

/-! ## The loops -/

theorem processCommand_runs :
    SlotRules.Runs config (SentClear config) (entriesContract config) i (fun _ => True)
      (SlotLoop.processCommand config command) := by
  rw [SlotLoop.processCommand]
  split
  · exact SlotRules.runs_bind (Q := fun _ _ => True) (E := fun _ _ => True)
      (unopened_runs (.ofExcept _)) fun _ => execute_runs
  · exact execute_runs
  · exact unopened_runs (unopened_cycle _)
  · exact unopened_runs (unopened_cycle _)
  · refine unopened_runs (.bind (.request trivial) fun positions => ?_)
    dsimp only
    split
    · exact .ret _
    · exact .bind (unopened_recordOrder _ _) fun _ => unopened_transition _ _
  · exact SlotRules.runs_done _

/-- A turn of a loop keeps the entries apart. -/
theorem turn_runs :
    SlotRules.Runs config (SentClear config) (entriesContract config) i (fun _ => True)
      (SlotLoop.turn config i) := by
  have runs : ∀ {α : Type} {p : Proc α}, p.All (fun _ => True) Unopened →
      SlotRules.Runs config (SentClear config) (entriesContract config) i (fun _ => True) p :=
    unopened_runs
  refine SlotRules.runs_bind (runs (.read _ trivial)) fun running => ?_
  split
  · refine SlotRules.runs_bind (runs (unopened_of_quiet HybridRepository.verifyLeadership_quiet))
      fun leading => ?_
    split
    · refine SlotRules.runs_bind (runs (unopened_nextCommand _ _)) fun command => ?_
      rcases command with _ | command
      · exact SlotRules.runs_done _
      · exact SlotRules.runs_bind processCommand_runs fun _ => SlotRules.runs_done _
    · exact runs (.modify trivial)
  · exact SlotRules.runs_done _

theorem entries_verified (config : Config) :
    Verified (service entryExchange config) (SentClear config) (entriesContract config)
      (fun _ _ => True) fun _ _ => True where
  body _ := turn_runs
  loop _ _ _ _ _ := trivial
  cut _ _ _ _ _ := trivial
  env w w' hw he _ := by
    have hsub : (entriesOf w').Sublist (entriesOf w) := by
      cases he with
      | exchange s _ hs => exact hs
      | _ => exact .refl _
    exact ⟨EntriesApart.of_symbols hw (hsub.map _), fun j => shownTo_sublist hsub j, trivial⟩

/-- The entries stay apart along every run in which each is accepted clear of those that its
    slot has not seen; one that is not breaks them. -/
theorem entries_apart (config : Config) :
    (∀ (w : ServiceWorld entryExchange) (c : Coop.Config Slot Memory (Remote entryExchange) JsError
        Op.Val), EntriesApart config (entriesOf w) →
      Run (service entryExchange config) (SentClear config)
        ((service entryExchange config).start w) c → EntriesApart config (entriesOf c.world)) ∧
    ∀ (c c' : Coop.Config Slot Memory (Remote entryExchange) JsError Op.Val)
      (l : Label Slot JsError Op.Val), Step (service entryExchange config) c l c' →
      ¬SentClear config c.world l c'.world → ¬EntriesApart config (entriesOf c'.world) := by
  refine ⟨fun w c hw hrun => (entries_verified config).run hw (fun _ => trivial) hrun,
    fun c c' l hstep hclear => ?_⟩
  simp only [SentClear, not_forall] at hclear
  obtain ⟨⟨i, request⟩, hsent, hopened, hclear⟩ := hclear
  cases hstep with
  | @call i' o k a r hp ha =>
    rcases entries_cases ha with h | ⟨shown, rfl, -⟩ | ⟨request', rfl, -, h⟩
    · exact absurd hopened (by simp [Config.advance, entriesOf, h])
    · cases hsent
    · cases hsent
      change ¬EntriesApart config r.exchange
      rw [h]
      exact not_apart_of_not_clear hclear
  | _ => cases hsent

/-! ## Two candidates of one symbol -/

/-- A service without a database, to which some candidates were delivered; no entry is live. -/
def deliveredTo (payloads : List Json) : ServiceWorld entryExchange where
  mem := payloads.foldl (fun m payload => (HybridRepository.acceptDirectCandidate payload m).2)
    (.started false false 1000)
  remote := ⟨∅, false, [], []⟩

/-- The step is one of a slot. -/
def OfSlots : EntryCondition
  | _, .env, _ => False
  | _, _, _ => True

/-- A candidate for `BTCUSDT`. -/
def exampleCandidate (candidateKey : String) : Json :=
  Executor.exampleCommand.payload.set "candidateKey" (.str candidateKey)

/-- The answers of an exchange that accepts every entry, until the positions would have to
    show one. -/
def exampleExchange : (o : BybitOp) → List LiveEntry →
    Option (Except JsError o.Val × List LiveEntry) :=
  let truth := exampleTruth "100" "0.01" "0.001" "0.001" none
  fun o entries => match o with
    | .accountInfo => some (.ok (some (.str "ISOLATED_MARGIN")), entries)
    | .wallet => some (.ok truth.wallet, entries)
    | .instrument _ => some (.ok truth.instrument, entries)
    | .ticker _ => some (.ok truth.ticker, entries)
    | .klines _ _ => some (.ok truth.kline15m, entries)
    | .positions => if entries.isEmpty then some (.ok [], []) else none
    | .activeOrders _ => some (.ok [], entries)
    | .realtimeOrder _ _ => some (.ok [], entries)
    | .orderHistory _ _ => some (.ok [], entries)
    | .executions _ _ => some (.ok [], entries)
    | .setLeverage _ _ => some (.ok (), entries)
    | .createOrder request =>
      if request.reduceOnly then none
      else some (.ok (some (.str "1")), accepted request :: entries)
    | _ => none

theorem exampleExchange_answers (slot : Slot) (o : BybitOp) (entries : List LiveEntry)
    (a : Except JsError o.Val) (entries' : List LiveEntry)
    (h : exampleExchange o entries = some (a, entries')) : Answers slot o entries a entries' := by
  cases o with
  | positions =>
    obtain ⟨hempty, h⟩ := Option.ite_none_right_eq_some.1 h
    obtain rfl := List.isEmpty_iff.1 hempty
    obtain ⟨rfl, rfl⟩ := Prod.mk.inj (Option.some.inj h)
    exact ⟨fun _ => true, rfl, fun s => by simp [openSymbols]⟩
  | activeOrders symbol =>
    obtain ⟨rfl, rfl⟩ := Prod.mk.inj (Option.some.inj h)
    exact ⟨rfl, fun row hrow => absurd hrow List.not_mem_nil⟩
  | createOrder request =>
    obtain ⟨hopens, h⟩ := Option.ite_none_left_eq_some.1 h
    obtain ⟨rfl, rfl⟩ := Prod.mk.inj (Option.some.inj h)
    exact .inr ⟨by simpa using hopens, rfl⟩
  | position symbol => cases h
  | setMarginMode => cases h
  | setTradingStop request => cases h
  | _ =>
    obtain ⟨rfl, rfl⟩ := Prod.mk.inj (Option.some.inj h)
    rfl

def exampleConfig : Config := loadConfig "node" none none none (some 3)

/-- The next step of a slot. -/
def exampleMove (slot : Slot) : Move Slot Memory (Remote entryExchange) JsError Op.Val :=
  .run slot (answering (fun _ => .lost "no database") exampleExchange)

theorem exampleMove_fair (slot : Slot) :
    (exampleMove slot).Fair (service entryExchange exampleConfig) :=
  answering_fair _ (exampleExchange_answers slot)

/-- A slot takes its candidate up to the entry order. -/
def uptoOrder (slot : Slot) : List (Move Slot Memory (Remote entryExchange) JsError Op.Val) :=
  List.replicate 46 (exampleMove slot)

/-- The symbols of the entries that are live after some moves. -/
def liveSymbols (c : Coop.Config Slot Memory (Remote entryExchange) JsError Op.Val) : List String :=
  (entriesOf c.world).map LiveEntry.symbol

/-- Both slots size their candidates before one of them sends its order. -/
def twoEntries : List (Move Slot Memory (Remote entryExchange) JsError Op.Val) :=
  uptoOrder slot1 ++ (uptoOrder slot2 ++ [exampleMove slot1, exampleMove slot2])

theorem twoEntries_fair : ∀ m ∈ twoEntries, m.Fair (service entryExchange exampleConfig) := by
  simp only [twoEntries, uptoOrder, List.forall_mem_append, List.forall_mem_cons]
  exact ⟨fun m h => List.eq_of_mem_replicate h ▸ exampleMove_fair slot1,
    fun m h => List.eq_of_mem_replicate h ▸ exampleMove_fair slot2, exampleMove_fair slot1,
    exampleMove_fair slot2, fun _ h => absurd h List.not_mem_nil⟩

/-- A candidate for another symbol. -/
def otherCandidate : Json := (exampleCandidate "ETHUSDT:1").set "symbol" (.str "ETHUSDT")

/-- Of different symbols, both are sent, clear of the entry that the other slot has not seen. -/
theorem entries_apart_two : ∃ c, Run (service entryExchange exampleConfig)
      (SentClear exampleConfig)
      ((service entryExchange exampleConfig).start
        (deliveredTo [exampleCandidate "BTCUSDT:1", otherCandidate])) c ∧
    liveSymbols c = ["ETHUSDT", "BTCUSDT"] ∧ EntriesApart exampleConfig (entriesOf c.world) := by
  have hlive : (playMeeting (service entryExchange exampleConfig)
      (fun w l w' => decide (SentClear exampleConfig w l w'))
      ((service entryExchange exampleConfig).start
        (deliveredTo [exampleCandidate "BTCUSDT:1", otherCandidate]))
      twoEntries).map liveSymbols = some ["ETHUSDT", "BTCUSDT"] := by decide +kernel
  obtain ⟨c, hc, hlive⟩ := Option.map_eq_some_iff.1 hlive
  have hrun := (Run.of_playMeeting twoEntries_fair hc).mono fun w l w' h => of_decide_eq_true h
  exact ⟨c, hrun, hlive, (entries_apart exampleConfig).1
    (deliveredTo [exampleCandidate "BTCUSDT:1", otherCandidate]) c ⟨List.nodup_nil, Nat.zero_le _⟩
    hrun⟩

theorem entries_not_apart : ¬∀ (config : Config) (payloads : List Json),
    (payloads.map fun payload => Json.toText (payload.get "candidateKey")).Nodup →
    ∀ c, Run (service entryExchange config) OfSlots
      ((service entryExchange config).start (deliveredTo payloads)) c →
    EntriesApart config (entriesOf c.world) := by
  intro h
  have hlive : (playStretch (service entryExchange exampleConfig)
      ((service entryExchange exampleConfig).start
        (deliveredTo [exampleCandidate "BTCUSDT:1", exampleCandidate "BTCUSDT:2"]))
      twoEntries).map liveSymbols = some ["BTCUSDT", "BTCUSDT"] := by decide +kernel
  obtain ⟨c, hc, hlive⟩ := Option.map_eq_some_iff.1 hlive
  have hapart := h exampleConfig [exampleCandidate "BTCUSDT:1", exampleCandidate "BTCUSDT:2"]
    (by decide) c (Run.of_playStretch (fun _ _ _ => trivial) (fun _ _ _ _ _ => trivial)
      twoEntries_fair hc)
  have hnodup := hapart.one_each
  change (liveSymbols c).Nodup at hnodup
  rw [hlive] at hnodup
  exact absurd hnodup (by decide)

end OneEntry

end IntradayBot.Node
