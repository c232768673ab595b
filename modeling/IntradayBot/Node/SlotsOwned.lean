import IntradayBot.Node.OneOwner

/-!
# Three slots, each with its command

Along every run whose steps keep the stores disjoint, and in which no active row
is left without support (`Supported`), at most three commands are active, with
distinct slots, and a slot that holds a command keeps it until it has ended, and is
given that command and no other (`slots_kept`). A single failure of the database
breaks it (`slots_not_kept`).
-/

namespace IntradayBot.Node

open Coop HybridRepository

variable {X : ExchangeModel} {config : Config} {i : Slot} {w w' : ServiceWorld X}

/-- While the database is not ready, every active row has an active copy in memory. -/
def RowsSupported (w : ServiceWorld X) : Prop :=
  ∀ k c, row? w k = some c → c.state.Active →
    w.mem.usable = true ∨ ∃ d, stored? w k = some d ∧ d.state.Active

/-- The stores stay disjoint, and the rows supported. -/
structure Supported (w : ServiceWorld X) (l : Label Slot JsError Op.Val) (w' : ServiceWorld X) :
    Prop where
  disjoint : Disjoint w l w'
  rows : RowsSupported w'

/-- Every active command is owned by a slot, and every slot owns one at most. -/
structure SlotsOwn (config : Config) (w : ServiceWorld X) : Prop where
  rows : RowsSupported w
  owner : ∀ k c, Copy w k c → c.state.Active →
    ∃ i, Busy i c ∧ c.ownerId = some (SlotLoop.owner config i)
  single : ∀ i k k' c c', Copy w k c → Busy i c → Copy w k' c' → Busy i c' → k = k'

theorem SlotsOwn.owner_eq (h : SlotsOwn config w) {k : String} {c : Command} (hc : Copy w k c)
    (hb : Busy i c) : c.ownerId = some (SlotLoop.owner config i) := by
  obtain ⟨j, hj, ho⟩ := h.owner k c hc hb.2
  rwa [hb.stamped.unique hj.stamped]

/-- What is active was active, with the same slot and the same owner. -/
theorem SlotsOwn.of_copies (h : SlotsOwn config w) (rows : RowsSupported w')
    (copies : ∀ k c', Copy w' k c' → c'.state.Active → ∃ c, Copy w k c ∧ c.state.Active ∧
      c'.slotId = c.slotId ∧ c'.ownerId = c.ownerId) : SlotsOwn config w' where
  rows := rows
  owner k c' hc' ha' := by
    obtain ⟨c, hc, ha, hslot, hown⟩ := copies k c' hc' ha'
    obtain ⟨j, hj, ho⟩ := h.owner k c hc ha
    exact ⟨j, ⟨hslot.trans hj.1, ha'⟩, hown.trans ho⟩
  single j k₁ k₂ c₁' c₂' h₁ hb₁ h₂ hb₂ := by
    obtain ⟨c₁, hc₁, ha₁, hslot₁, -⟩ := copies k₁ c₁' h₁ hb₁.2
    obtain ⟨c₂, hc₂, ha₂, hslot₂, -⟩ := copies k₂ c₂' h₂ hb₂.2
    exact h.single j k₁ k₂ c₁ c₂ hc₁ ⟨hslot₁.symm.trans hb₁.1, ha₁⟩ hc₂
      ⟨hslot₂.symm.trans hb₂.1, ha₂⟩

/-- A slot that has no command takes one. -/
theorem SlotsOwn.take (h : SlotsOwn config w) (rows : RowsSupported w') (free : At i none w)
    {k : String} (copies : ∀ k' c', Copy w' k' c' → c'.state.Active →
      Copy w k' c' ∨ k' = k ∧ Busy i c' ∧ c'.ownerId = some (SlotLoop.owner config i)) :
    SlotsOwn config w' where
  rows := rows
  owner k' c' hc' ha' := by
    obtain hc | ⟨-, hb, ho⟩ := copies k' c' hc' ha'
    · exact h.owner k' c' hc ha'
    · exact ⟨i, hb, ho⟩
  single j k₁ k₂ c₁ c₂ h₁ hb₁ h₂ hb₂ := by
    have other : ∀ {k' c'}, Copy w k' c' → Busy j c' → ∀ {d}, Busy i d → Busy j d → False :=
      fun hc' hb' _ hd hd' => free _ _ hc' (hd.stamped.unique hd'.stamped ▸ hb')
    obtain hc₁ | ⟨rfl, hi₁, -⟩ := copies k₁ c₁ h₁ hb₁.2 <;>
      obtain hc₂ | ⟨rfl, hi₂, -⟩ := copies k₂ c₂ h₂ hb₂.2
    · exact h.single j k₁ k₂ c₁ c₂ hc₁ hb₁ hc₂ hb₂
    · exact (other hc₁ hb₁ hi₂ hb₂).elim
    · exact (other hc₂ hb₂ hi₁ hb₁).elim
    · rfl

/-- What holds of the copies touched and of all others holds of all copies. -/
theorem Touches.copies {k : String} {P : String → Command → Prop} (h : Touches k w w')
    (others : ∀ k' c, Copy w k' c → P k' c) (entry : ∀ c, stored? w' k = some c → P k c)
    (row : ∀ c, row? w' k = some c → P k c) : ∀ k' c, Copy w' k' c → P k' c := by
  intro k' c hc
  by_cases hk : k' = k
  · subst hk
    exact hc.elim (entry c) (row c)
  · unfold Copy at hc
    rw [h.entries k' hk, h.rows k' hk] at hc
    exact others k' c hc

/-- The command was active, with the same slot and the same owner. -/
def WasActive (w : ServiceWorld X) (k : String) (c' : Command) : Prop :=
  c'.state.Active → ∃ c, Copy w k c ∧ c.state.Active ∧ c'.slotId = c.slotId ∧
    c'.ownerId = c.ownerId

theorem wasActive_of_copy {k : String} {c : Command} (h : Copy w k c) : WasActive w k c :=
  fun ha => ⟨c, h, ha, rfl, rfl⟩

theorem wasActive_of_later {k : String} {c c' : Command} (h : Copy w k c) (hc : Busy i c)
    (later : Later c c') : WasActive w k c' :=
  fun _ => ⟨c, h, hc.2, later.slotId, later.ownerId⟩

/-- The command is taken by the slot, which had none. -/
theorem SlotsOwn.reserve (h : SlotsOwn config w) (rows : RowsSupported w') (free : At i none w)
    {k : String} {c c' : Command} (touches : Touches k w w')
    (reserves : Reserves i (SlotLoop.owner config i) c c')
    (entry : stored? w' k = stored? w k ∨ stored? w' k = some c')
    (row : row? w' k = row? w k ∨ row? w' k = some c') : SlotsOwn config w' := by
  have new : Busy i c' ∧ c'.ownerId = some (SlotLoop.owner config i) :=
    ⟨⟨reserves.slotId, reserves.state ▸ CommandState.active_reserved⟩, reserves.ownerId⟩
  refine h.take rows free (k := k) fun k' d hd _ => ?_
  refine touches.copies (P := fun k' d => Copy w k' d ∨ k' = k ∧ Busy i d ∧
    d.ownerId = some (SlotLoop.owner config i)) (fun _ _ h => .inl h) (fun d hd => ?_)
    (fun d hd => ?_) k' d hd
  · obtain he | he := entry
    · exact .inl (.inl (he ▸ hd))
    · obtain rfl : c' = d := Option.some.inj (he.symm.trans hd)
      exact .inr ⟨rfl, new⟩
  · obtain hr | hr := row
    · exact .inl (.inr (hr ▸ hd))
    · obtain rfl : c' = d := Option.some.inj (hr.symm.trans hd)
      exact .inr ⟨rfl, new⟩

/-- Every change leaves the slots their commands. -/
theorem Change.slotsOwn (h : Change (fun i => At i none) (SlotLoop.owner config) i w w')
    (rows : RowsSupported w') (ho : SlotsOwn config w) : SlotsOwn config w' := by
  -- A slot gets a command by a reservation or a claim alone; in all other cases it had it
  -- before.
  cases h with
  | quiet entries rowsSame orders usable =>
    refine ho.of_copies rows fun k c hc => ?_
    unfold Copy at hc
    rw [entries, rowsSame] at hc
    exact wasActive_of_copy hc
  | moved k touches c c' busy before after later source row orders =>
    refine ho.of_copies rows (touches.copies (fun _ _ => wasActive_of_copy) (fun d hd => ?_)
      fun d hd => wasActive_of_copy (.inr (row ▸ hd)))
    obtain rfl : c' = d := Option.some.inj (after.symm.trans hd)
    exact wasActive_of_later (.inl before) busy later
  | shadowed k touches c c' stamped absent before after source slotId ownerId state active row
      given_up orders =>
    refine ho.of_copies rows (touches.copies (fun _ _ => wasActive_of_copy) (fun d hd => ?_)
      fun d hd => wasActive_of_copy (.inr (row ▸ hd)))
    obtain rfl : c' = d := Option.some.inj (after.symm.trans hd)
    exact fun ha => ⟨c, .inr before, active ha, slotId.trans stamped.1.symm,
      ownerId.trans (ho.owner_eq (.inr before) ⟨stamped.1, active ha⟩).symm⟩
  | updated k touches c c' busy absent before after later entry orders =>
    refine ho.of_copies rows (touches.copies (fun _ _ => wasActive_of_copy) (fun d hd => ?_)
      fun d hd => ?_)
    · rw [entry] at hd
      cases hd
    · obtain rfl : c' = d := Option.some.inj (after.symm.trans hd)
      exact wasActive_of_later (.inr before) busy later
  | reserved k touches c c' free before after reserves row orders =>
    exact ho.reserve rows free touches reserves (.inr after) (.inl row)
  | claimed k touches c c' free absent before after reserves entry orders =>
    exact ho.reserve rows free touches reserves (.inl (entry.trans absent.symm)) (.inr after)
  | sent k touches c busy pending before unsent entry row orders =>
    exact ho.of_copies rows (touches.copies (fun _ _ => wasActive_of_copy)
      (fun d hd => wasActive_of_copy (.inl (entry ▸ hd)))
      fun d hd => wasActive_of_copy (.inr (row ▸ hd)))

/-- What arrives is not active. -/
theorem Arrival.slotsOwn (h : Arrival w w') (rows : RowsSupported w') (ho : SlotsOwn config w) :
    SlotsOwn config w' := by
  have available : ∀ {k c}, c.state = .available → WasActive w k c := fun hc ha =>
    absurd (hc ▸ ha) CommandState.not_active_available
  cases h with
  | quiet entries rowsSame orders usable =>
    refine ho.of_copies rows fun k c hc => ?_
    unfold Copy at hc
    rw [entries, rowsSame] at hc
    exact wasActive_of_copy hc
  | delivered k touches c absent after state source row avail orders =>
    refine ho.of_copies rows (touches.copies (fun _ _ => wasActive_of_copy) (fun d hd => ?_)
      fun d hd => wasActive_of_copy (.inr (row ▸ hd)))
    obtain rfl : c = d := Option.some.inj (after.symm.trans hd)
    exact available state
  | published k touches c avail after state entry orders =>
    refine ho.of_copies rows (touches.copies (fun _ _ => wasActive_of_copy)
      (fun d hd => wasActive_of_copy (.inl (entry ▸ hd))) fun d hd => ?_)
    obtain rfl : c = d := Option.some.inj (after.symm.trans hd)
    exact available state

/-! ## The calls -/

/-- A slot that holds a command is given it when it asks, and nothing when it claims. -/
def SlotCall.Right (call : SlotCall) : Prop :=
  ∀ k, call.held = some k → call.result = match call.kind with
    | .ownedActiveCommand => some k
    | .claim => none

/-- The slots own their commands, along the runs that support them. -/
def slotsOwn (X : ExchangeModel) (config : Config) : Extension X config Supported where
  inv := SlotsOwn config
  Free i := At i none
  Call := SlotCall.Right
  disjoint h := h.disjoint
  change hok _ _ h := h.slotsOwn hok.rows
  arrival hok _ _ h := h.slotsOwn hok.rows
  stable_free hr h k c hc hb := by
    unfold Copy at hc
    rw [← hr.entries k c hb.stamped, ← hr.rows k c hb.stamped] at hc
    exact h k c hc hb
  free := by
    intro i w hw ho hentries hrows k c hc hb
    have howner := ho.owner_eq hc hb
    rcases hc with hc | hc
    · exact hentries k c hc hb howner
    · rcases ho.rows k c hc hb.2 with hu | ⟨d, hd, ha⟩
      · exact hrows hu k c hc hb howner
      · have hslot := (hw.copy_slot hd hc hb.stamped.2).1
        have hbd : Busy i d := ⟨hslot.symm.trans hb.1, ha⟩
        exact hentries k d hd hbd (ho.owner_eq (.inl hd) hbd)
  owned := by
    intro i held r w _ ho hheld hnone hsome k hk
    obtain rfl : held = some k := hk
    obtain ⟨c, hc, hb⟩ := hheld
    cases r with
    | none => exact (hnone rfl k c hc hb).elim
    | some k' =>
      obtain ⟨d, hd, hbd⟩ := hsome k' rfl
      exact congrArg some (ho.single i k' k d c hd hbd hc hb)
  claimed := by
    intro i held r w _ _ hheld hfree k hk
    obtain rfl : held = some k := hk
    obtain ⟨c, hc, hb⟩ := hheld
    exact (hfree k c hc hb).elim

/-! ## The active commands -/

/-- The active commands of both stores. -/
def activeUnion (w : ServiceWorld X) : List Command :=
  mergeActive w.mem.activeDirect w.remote.tables.activeRows

theorem copy_of_mem_activeUnion {c : Command} (h : c ∈ activeUnion w) :
    Copy w c.candidateKey c ∧ c.state.Active := by
  unfold activeUnion mergeActive at h
  rcases List.mem_append.1 h with h | h
  · rw [Memory.activeDirect, List.mem_filter, CommandMap.mem_commands] at h
    exact ⟨.inl h.1, by simpa using h.2⟩
  · obtain ⟨hrow, ha⟩ := Tables.mem_activeRows.1 (List.mem_filter.1 h).1
    exact ⟨.inr hrow, ha⟩

theorem nodup_keys_activeUnion (w : ServiceWorld X) :
    ((activeUnion w).map Command.candidateKey).Nodup := by
  have hmemory : (w.mem.activeDirect.map Command.candidateKey).Nodup :=
    (CommandMap.nodup_keys _).sublist (List.filter_sublist.map _)
  have hrows : (w.remote.tables.activeRows.map Command.candidateKey).Nodup :=
    (CommandMap.nodup_keys _).sublist (List.filter_sublist.map _)
  rw [activeUnion, mergeActive, List.map_append]
  refine List.Nodup.append hmemory (hrows.sublist (List.filter_sublist.map _)) ?_
  intro k hk hk'
  obtain ⟨c, hc, rfl⟩ := List.mem_map.1 hk'
  exact absurd hk (by simpa using (List.mem_filter.1 hc).2)

/-- What holds of the slots at a later point of a run: at most three commands are active, with
    distinct slots, … -/
structure SlotsKept (w w' : ServiceWorld X) : Prop where
  count : (activeUnion w').length ≤ 3
  ids : ∀ c ∈ activeUnion w', c.slotId ∈ [some 1, some 2, some 3]
  distinct : ((activeUnion w').map Command.slotId).Nodup
  /-- … a slot holds what it held, unless that was closed or failed, … -/
  holds : ∀ i k, heldKey w i = some k → heldKey w' i = some k ∨ Ended w' k
  /-- … and what the slots are given is what they hold. -/
  calls : ∀ call ∈ w'.mem.calls, call.Right

theorem SlotsOwn.ids (h : SlotsOwn config w) : ∀ c ∈ activeUnion w,
    c.slotId ∈ [some 1, some 2, some 3] := by
  intro c hc
  obtain ⟨hcopy, ha⟩ := copy_of_mem_activeUnion hc
  obtain ⟨i, hi, -⟩ := h.owner _ c hcopy ha
  rw [hi.1]
  clear hi
  revert i
  decide

theorem SlotsOwn.distinct (h : SlotsOwn config w) :
    ((activeUnion w).map Command.slotId).Nodup := by
  refine List.Nodup.map_on (fun c hc d hd hs => ?_) (List.Nodup.of_map _ (nodup_keys_activeUnion w))
  obtain ⟨hc', ha⟩ := copy_of_mem_activeUnion hc
  obtain ⟨hd', hb⟩ := copy_of_mem_activeUnion hd
  obtain ⟨i, hi, -⟩ := h.owner _ c hc' ha
  have hkeys : c.candidateKey = d.candidateKey := h.single i _ _ c d hc' hi hd' ⟨hs ▸ hi.1, hb⟩
  exact List.inj_on_of_nodup_map (nodup_keys_activeUnion w) hc hd hkeys

theorem SlotsOwn.count (h : SlotsOwn config w) : (activeUnion w).length ≤ 3 := by
  have hsub : (activeUnion w).map Command.slotId ⊆ [some 1, some 2, some 3] := fun s hs => by
    obtain ⟨c, hc, rfl⟩ := List.mem_map.1 hs
    exact h.ids c hc
  simpa using (List.subperm_of_subset h.distinct hsub).length_le

/-- The key recorded as held is that of the one command that the slot works on. -/
theorem SlotsOwn.heldKey_eq_some (h : SlotsOwn config w) {k : String} :
    heldKey w i = some k ↔ WorksOn w i k := by
  have hat := at_heldKey w i
  refine ⟨fun hk => ?_, fun ⟨c, hc, hb⟩ => ?_⟩
  · rw [hk] at hat
    exact hat
  · cases hk : heldKey w i with
    | none =>
      rw [hk] at hat
      exact (hat k c hc hb).elim
    | some k' =>
      rw [hk] at hat
      obtain ⟨d, hd, hbd⟩ := hat
      exact congrArg some (h.single i k' k d c hd hbd hc hb)

theorem SlotsOwn.kept (h : SlotsOwn config w) (h' : SlotsOwn config w') (hf : Forward w w')
    (calls : ∀ call ∈ w'.mem.calls, call.Right) : SlotsKept w w' :=
  ⟨h'.count, h'.ids, h'.distinct,
    fun i k hk => (hf.held i k (h.heldKey_eq_some.1 hk)).imp_left h'.heldKey_eq_some.2, calls⟩

/-! ## Runs -/

/-- The active rows were adopted: each has its own slot, and the owner of that slot. -/
structure Adopted (config : Config) (w : ServiceWorld X) : Prop where
  owner : ∀ k c, row? w k = some c → c.state.Active →
    ∃ i, Busy i c ∧ c.ownerId = some (SlotLoop.owner config i)

theorem Adopted.slotsOwn (h : Adopted config w) (hw : Starts w) (rows : RowsSupported w) :
    SlotsOwn config w := by
  obtain ⟨⟨localeCompare, database, databaseReady, now, hmem⟩, -⟩ := hw
  have row : ∀ {k c}, Copy w k c → row? w k = some c := fun hc => hc.resolve_left fun he => by
    rw [stored?, hmem] at he
    cases he
  refine ⟨rows, fun k c hc => h.owner k c (row hc), fun i k k' c c' hc hb hc' hb' => ?_⟩
  exact w.remote.tables.activeSlots k k' c c' (row hc) (row hc') hb.2 hb'.2
    (hb.1.trans hb'.1.symm) (by simp [hb.1])

/-- Along the runs that leave no active row without support, slots keep their commands. -/
theorem slots_kept (X : ExchangeModel) (config : Config) {w : ServiceWorld X} (hw : Starts w)
    (adopted : Adopted config w) (rows : RowsSupported w)
    {c₁ c₂ : Coop.Config Slot Memory (Remote X) JsError Op.Val}
    (h₁ : Run (service X config) Supported ((service X config).start w) c₁)
    (h₂ : Run (service X config) Supported c₁ c₂) : SlotsKept c₁.world c₂.world := by
  have hv := verified (slotsOwn X config)
  have hinv := hw.invariant (slotsOwn X config) (adopted.slotsOwn hw rows)
  have hbefore := hv.run hinv (fun _ => trivial) h₁
  have hafter := hv.run hinv (fun _ => trivial) (h₁.trans h₂)
  have hforward : Forward c₁.world c₂.world :=
    hv.steps hinv (fun _ => trivial) (fun _ _ _ => Forward.trans) h₁ h₂
  exact hbefore.inv.kept hafter.inv hforward hafter.calls

/-! ## A single failure -/

/-- A database whose row of a candidate is reserved for slot 1. -/
def reservedRow : Tables :=
  (((∅ : Tables).publish "BTCUSDT-1" approvedPayload 0).claim (fun _ => false) "node:slot1" 1 0).2

/-- The service, started over this row. -/
def adoptedService : ServiceWorld silent := ⟨.started true true 0, ⟨reservedRow, false, [], ()⟩⟩

/-- The next step of slot 1, whose calls for the command that it owns fail. -/
def failingMove : Move Slot Memory (Remote silent) JsError Op.Val :=
  .run slot1 (answering (fun o => match o with
    | .selectOwned _ _ => .lost "Connection terminated"
    | _ => .done fun _ => false) fun _ _ => none)

theorem failed_call : (playAll (service silent defaultConfig)
    ((service silent defaultConfig).start adoptedService) (List.replicate 9 failingMove)).map
      (fun c => c.world.mem.calls) = some [⟨slot1, .ownedActiveCommand, some "BTCUSDT-1", none⟩] := by
  decide +kernel

theorem reservedRow_owned : ∀ c ∈ reservedRow.activeRows,
    c.slotId = some 1 ∧ c.ownerId = some (SlotLoop.owner defaultConfig slot1) := by
  decide +kernel

theorem adoptedService_adopted : Adopted defaultConfig adoptedService where
  owner k c hc ha := by
    have hkey : c.candidateKey = k := CommandMap.candidateKey_of_get? hc
    obtain ⟨hslot, hown⟩ := reservedRow_owned c (Tables.mem_activeRows.2 ⟨hkey ▸ hc, ha⟩)
    exact ⟨slot1, ⟨hslot, ha⟩, hown⟩

theorem adoptedService_supported : RowsSupported adoptedService := fun _ _ _ _ => .inl rfl

/-- Slot 1 is not given the command that it holds. -/
theorem slots_not_kept : ¬∀ (X : ExchangeModel) (config : Config) (w : ServiceWorld X), Starts w →
    Adopted config w → RowsSupported w →
    ∀ c₁ c₂ : Coop.Config Slot Memory (Remote X) JsError Op.Val,
    Run (service X config) (fun _ _ _ => True) ((service X config).start w) c₁ →
    Run (service X config) (fun _ _ _ => True) c₁ c₂ → SlotsKept c₁.world c₂.world := by
  intro h
  obtain ⟨c, hc, hcalls⟩ := Option.map_eq_some_iff.1 failed_call
  have hfair : ∀ m ∈ List.replicate 9 failingMove, m.Fair (service silent defaultConfig) :=
    fun m hm => List.eq_of_mem_replicate hm ▸ answering_fair _ fun _ _ _ _ h => by cases h
  have hkept := h silent defaultConfig adoptedService ⟨⟨_, _, _, _, rfl⟩, rfl⟩ adoptedService_adopted
    adoptedService_supported _ c .refl (Run.of_playAll hfair hc)
  have hright := hkept.calls _ (hcalls ▸ List.mem_singleton_self _) "BTCUSDT-1" rfl
  cases hright

/-! ## Slots that claim, are refused and order -/

theorem takenRow_owned : ∀ c ∈ takenRow.activeRows,
    c.slotId = some 1 ∧ c.ownerId = some (SlotLoop.owner tradingConfig slot1) := by
  decide +kernel

theorem takenService_adopted : Adopted tradingConfig takenService where
  owner k c hc ha := by
    have hkey : c.candidateKey = k := CommandMap.candidateKey_of_get? hc
    obtain ⟨hslot, hown⟩ := takenRow_owned c (Tables.mem_activeRows.2 ⟨hkey ▸ hc, ha⟩)
    exact ⟨slot1, ⟨hslot, ha⟩, hown⟩

theorem supported_of_apart {l : Label Slot JsError Op.Val} (h : apart w w') : Supported w l w' :=
  ⟨disjoint_of_apart h, fun _ _ _ _ => .inl (Bool.and_eq_true_iff.1 h).1⟩

/-- Slot 1 keeps its command up to the order, and slot 2 until it has failed. -/
theorem slots_kept_worked : ∃ c₁ c₂,
    Run (service talking tradingConfig) Supported
      ((service talking tradingConfig).start takenService) c₁ ∧
    Run (service talking tradingConfig) Supported c₁ c₂ ∧
    account c₁.world =
      ⟨[("BTCUSDT:0", .reserved, some 2), ("BTCUSDT:1", .reserved, some 1)], []⟩ ∧
    account c₂.world =
      ⟨[("BTCUSDT:0", .failed, some 2), ("BTCUSDT:1", .orderPending, some 1),
        ("BTCUSDT:2", .reserved, some 2)], ["BTCUSDT:1"]⟩ ∧
    SlotsKept c₁.world c₂.world := by
  obtain ⟨c₁, c₂, h₁, h₂, haccount₁, haccount₂⟩ := claims_works
  replace h₁ := h₁.mono fun w l w' h => supported_of_apart (l := l) h
  replace h₂ := h₂.mono fun w l w' h => supported_of_apart (l := l) h
  exact ⟨c₁, c₂, h₁, h₂, haccount₁, haccount₂,
    slots_kept talking tradingConfig ⟨⟨_, _, _, _, rfl⟩, rfl⟩ takenService_adopted
      (fun _ _ _ _ => .inl rfl) h₁ h₂⟩

end IntradayBot.Node
