import IntradayBot.Node.SlotRules

/-!
# Two stores, three slots

The two stores are never synchronised: a candidate may be in memory and in the
table at once. This module says when they are *exclusive* (`Exclusive`): a row
whose candidate was delivered in memory is still available, unless the entry in
memory is a shadow of the row, for the same slot.

What one step of a slot may do to the stores is said once (`Change`), and so is
what may arrive from outside (`Arrival`). Every change keeps the stores exclusive
and spares what the other slots hold (`Rely`), never makes active again what has
ended (`Forward`), as long as two things do not happen: the database claims a row
whose candidate is in memory, or a candidate is delivered whose row was taken
(`Disjoint`).

The contract of the loops, `contract`, may be extended by an invariant of its own
(`Extension`).
-/

namespace IntradayBot.Node

open Coop HybridRepository

variable {X : ExchangeModel}

/-! ## The stores -/

/-- The entry of a key in memory. -/
abbrev stored? (w : ServiceWorld X) (k : String) : Option Command := w.mem.direct.get? k

/-- The row of a key. -/
abbrev row? (w : ServiceWorld X) (k : String) : Option Command := w.remote.tables.row? k

/-- The command was taken by slot `i`. -/
def Stamped (i : Slot) (c : Command) : Prop := c.slotId = some i.id ∧ c.state ≠ .available

/-- The command is being worked on by slot `i`. -/
def Busy (i : Slot) (c : Command) : Prop := c.slotId = some i.id ∧ c.state.Active

theorem Busy.stamped {i : Slot} {c : Command} (h : Busy i c) : Stamped i c :=
  ⟨h.1, h.2.ne_available⟩

theorem Stamped.unique {i j : Slot} {c : Command} (hi : Stamped i c) (hj : Stamped j c) : i = j :=
  Slot.id_injective (Option.some.inj (hi.1.symm.trans hj.1))

/-- A command in one of the two stores. -/
def Copy (w : ServiceWorld X) (k : String) (c : Command) : Prop :=
  stored? w k = some c ∨ row? w k = some c

/-- The slot is working on the candidate. -/
def WorksOn (w : ServiceWorld X) (i : Slot) (k : String) : Prop := ∃ c, Copy w k c ∧ Busy i c

/-- The candidate was closed or failed. -/
def Ended (w : ServiceWorld X) (k : String) : Prop := ∃ c, Copy w k c ∧ c.state.Terminal

/-- The keys of the entry orders among the orders requested. -/
def entryKeys (orders : List OrderRequest) : List String :=
  orders.filterMap fun o => match o.orderLinkId with
    | .entry k => some k
    | .management _ _ => none

/-- The entry order of the candidate was requested. -/
def Sent (w : ServiceWorld X) (k : String) : Prop := k ∈ entryKeys w.remote.orders

/-- The copies of one candidate. -/
structure ExclusiveAt (w : ServiceWorld X) (k : String) : Prop where
  /-- The row of a candidate delivered in memory is still available. -/
  delivered : ∀ c row, stored? w k = some c → c.source = .direct → row? w k = some row →
    row.state = .available
  /-- A shadow has a row, taken by the same slot, and the database is given up. -/
  shadow : ∀ c, stored? w k = some c → c.source ≠ .direct →
    c.state ≠ .available ∧ w.mem.usable = false ∧
      ∃ row, row? w k = some row ∧ row.state ≠ .available ∧ row.slotId = c.slotId
  /-- A candidate whose entry order was requested is past its reservation. -/
  sent : Sent w k → ∃ c, visible w k = some c ∧ c.state ≠ .available ∧ c.state ≠ .reserved

/-- The stores are exclusive. -/
structure Exclusive (w : ServiceWorld X) : Prop where
  at_key : ∀ k, ExclusiveAt w k
  once : (entryKeys w.remote.orders).Nodup

/-- What is not delivered in memory has no other copy that is taken by another slot. -/
theorem Exclusive.copy_slot {w : ServiceWorld X} (h : Exclusive w) {k : String} {c d : Command}
    (hc : stored? w k = some c) (hd : row? w k = some d) (hs : d.state ≠ .available) :
    d.slotId = c.slotId ∧ c.state ≠ .available := by
  have hdirect : c.source ≠ .direct := fun hd' => hs ((h.at_key k).delivered c d hc hd' hd)
  obtain ⟨hst, -, row, hrow, -, hslot⟩ := (h.at_key k).shadow c hc hdirect
  obtain rfl : row = d := Option.some.inj (hrow.symm.trans hd)
  exact ⟨hslot, hst⟩

/-- All taken copies of a candidate are taken by the same slot. -/
theorem Exclusive.stamped_unique {w : ServiceWorld X} (h : Exclusive w) {k : String} {i j : Slot}
    {c d : Command} (hc : Copy w k c) (hi : Stamped i c) (hd : Copy w k d) (hj : Stamped j d) :
    i = j := by
  have key : ∀ {c d : Command}, stored? w k = some c → row? w k = some d → d.state ≠ .available →
      c.slotId = d.slotId := fun hc hd hs => (h.copy_slot hc hd hs).1.symm
  have hslot : c.slotId = d.slotId := by
    rcases hc with hc | hc <;> rcases hd with hd | hd
    · rw [Option.some.inj (hc.symm.trans hd)]
    · exact key hc hd hj.2
    · exact (key hd hc hi.2).symm
    · rw [Option.some.inj (hc.symm.trans hd)]
  exact Slot.id_injective (Option.some.inj (hi.1.symm.trans (hslot.trans hj.1)))

theorem visible_of_entry {w : ServiceWorld X} {k : String} {c : Command}
    (h : stored? w k = some c) : visible w k = some c := by
  simp [visible, h]

theorem visible_of_row {w : ServiceWorld X} {k : String} {c : Command} (hn : stored? w k = none)
    (h : row? w k = some c) : visible w k = some c := by
  simp [visible, hn, h]

theorem copy_of_visible {w : ServiceWorld X} {k : String} {c : Command}
    (h : visible w k = some c) : Copy w k c := by
  unfold visible at h
  cases he : w.mem.direct.get? k with
  | some d => exact .inl (he.trans (by simpa [he] using h))
  | none => exact .inr (by simpa [he] using h)

/-! ## What the others may do -/

/-- What slot `i` may rely on: what it took stays as it is, and nothing else is taken
    for it. -/
structure Rely (i : Slot) (w w' : ServiceWorld X) : Prop where
  entries : ∀ k c, Stamped i c → (stored? w k = some c ↔ stored? w' k = some c)
  rows : ∀ k c, Stamped i c → (row? w k = some c ↔ row? w' k = some c)
  /-- No entry in memory comes to hide a row that it took. -/
  fresh : ∀ k c, Stamped i c → row? w k = some c → stored? w k = none → stored? w' k = none
  unsent : ∀ k c, Stamped i c → visible w k = some c → ¬Sent w k → ¬Sent w' k

theorem Rely.refl (i : Slot) (w : ServiceWorld X) : Rely i w w :=
  ⟨fun _ _ _ => .rfl, fun _ _ _ => .rfl, fun _ _ _ _ h => h, fun _ _ _ _ h => h⟩

theorem Rely.visible {i : Slot} {w w' : ServiceWorld X} (h : Rely i w w') {k : String}
    {c : Command} (hs : Stamped i c) (hv : visible w k = some c) : visible w' k = some c := by
  unfold Node.visible at hv
  cases he : w.mem.direct.get? k with
  | some d =>
    obtain rfl : d = c := by simpa [he] using hv
    exact visible_of_entry ((h.entries k d hs).1 he)
  | none =>
    have hrow : row? w k = some c := by simpa [he] using hv
    exact visible_of_row (h.fresh k c hs hrow he) ((h.rows k c hs).1 hrow)

theorem Rely.trans {i : Slot} {w₁ w₂ w₃ : ServiceWorld X} (h : Rely i w₁ w₂) (h' : Rely i w₂ w₃) :
    Rely i w₁ w₃ where
  entries k c hs := (h.entries k c hs).trans (h'.entries k c hs)
  rows k c hs := (h.rows k c hs).trans (h'.rows k c hs)
  fresh k c hs hr hn := h'.fresh k c hs ((h.rows k c hs).1 hr) (h.fresh k c hs hr hn)
  unsent k c hs hv hn := h'.unsent k c hs (h.visible hs hv) (h.unsent k c hs hv hn)

/-- No step makes active again what has ended, or takes from a slot what has not. -/
structure Forward (w w' : ServiceWorld X) : Prop where
  ended : ∀ k, Ended w k → Ended w' k
  entries : ∀ k c, Ended w k → stored? w' k = some c → c.state.Active →
    ∃ d, stored? w k = some d ∧ d.state.Active
  rows : ∀ k c, Ended w k → row? w' k = some c → c.state.Active →
    ∃ d, row? w k = some d ∧ d.state.Active
  held : ∀ i k, WorksOn w i k → WorksOn w' i k ∨ Ended w' k

theorem Forward.refl (w : ServiceWorld X) : Forward w w :=
  ⟨fun _ h => h, fun _ c _ h ha => ⟨c, h, ha⟩, fun _ c _ h ha => ⟨c, h, ha⟩, fun _ _ h => .inl h⟩

theorem Forward.trans {w₁ w₂ w₃ : ServiceWorld X} (h : Forward w₁ w₂) (h' : Forward w₂ w₃) :
    Forward w₁ w₃ where
  ended k he := h'.ended k (h.ended k he)
  entries k c he hc ha := by
    obtain ⟨d, hd, hda⟩ := h'.entries k c (h.ended k he) hc ha
    exact h.entries k d he hd hda
  rows k c he hc ha := by
    obtain ⟨d, hd, hda⟩ := h'.rows k c (h.ended k he) hc ha
    exact h.rows k d he hd hda
  held i k hi := (h.held i k hi).elim (h'.held i k) fun he => .inr (h'.ended k he)

/-! ## What a step may do -/

/-- Only the copies of one candidate change, and its order. -/
structure Touches (k : String) (w w' : ServiceWorld X) : Prop where
  entries : ∀ k', k' ≠ k → stored? w' k' = stored? w k'
  rows : ∀ k', k' ≠ k → row? w' k' = row? w k'
  sent : ∀ k', k' ≠ k → (Sent w' k' ↔ Sent w k')
  usable : w'.mem.usable = true → w.mem.usable = true

/-- The same command, further on. -/
structure Later (c c' : Command) : Prop where
  slotId : c'.slotId = c.slotId
  ownerId : c'.ownerId = c.ownerId
  state : c'.state ≠ .available ∧ (c'.state = c.state ∨ c'.state ≠ .reserved)

/-- The command, reserved. -/
structure Reserves (i : Slot) (owner : String) (c c' : Command) : Prop where
  available : c.state = .available
  state : c'.state = .reserved
  slotId : c'.slotId = some i.id
  ownerId : c'.ownerId = some owner
  source : c'.source = c.source

/-- What a step of slot `i` may do; where it takes a candidate, `Free i` holds. -/
inductive Change (Free : Slot → ServiceWorld X → Prop) (owner : Slot → String) (i : Slot)
    (w w' : ServiceWorld X) : Prop
  /-- The stores and the orders stay as they are. -/
  | quiet (entries : ∀ k, stored? w' k = stored? w k) (rows : ∀ k, row? w' k = row? w k)
      (orders : entryKeys w'.remote.orders = entryKeys w.remote.orders)
      (usable : w'.mem.usable = true → w.mem.usable = true)
  /-- An entry in memory moves. -/
  | moved (k : String) (touches : Touches k w w') (c c' : Command) (busy : Busy i c)
      (before : stored? w k = some c) (after : stored? w' k = some c') (later : Later c c')
      (source : c'.source = c.source) (row : row? w' k = row? w k)
      (orders : entryKeys w'.remote.orders = entryKeys w.remote.orders)
  /-- A row gets a shadow, when the database is given up. -/
  | shadowed (k : String) (touches : Touches k w w') (c c' : Command) (stamped : Stamped i c)
      (absent : stored? w k = none) (before : row? w k = some c) (after : stored? w' k = some c')
      (source : c'.source = .dbShadow) (slotId : c'.slotId = some i.id)
      (ownerId : c'.ownerId = some (owner i))
      (state : c'.state ≠ .available ∧ c'.state ≠ .reserved)
      (active : c'.state.Active → c.state.Active) (row : row? w' k = row? w k)
      (given_up : w'.mem.usable = false)
      (orders : entryKeys w'.remote.orders = entryKeys w.remote.orders)
  /-- A row moves. -/
  | updated (k : String) (touches : Touches k w w') (c c' : Command) (busy : Busy i c)
      (absent : stored? w k = none) (before : row? w k = some c) (after : row? w' k = some c')
      (later : Later c c') (entry : stored? w' k = none)
      (orders : entryKeys w'.remote.orders = entryKeys w.remote.orders)
  /-- A candidate in memory is reserved. -/
  | reserved (k : String) (touches : Touches k w w') (c c' : Command) (free : Free i w)
      (before : stored? w k = some c) (after : stored? w' k = some c')
      (reserves : Reserves i (owner i) c c') (row : row? w' k = row? w k)
      (orders : entryKeys w'.remote.orders = entryKeys w.remote.orders)
  /-- A row is claimed. -/
  | claimed (k : String) (touches : Touches k w w') (c c' : Command) (free : Free i w)
      (absent : stored? w k = none) (before : row? w k = some c) (after : row? w' k = some c')
      (reserves : Reserves i (owner i) c c') (entry : stored? w' k = none)
      (orders : entryKeys w'.remote.orders = entryKeys w.remote.orders)
  /-- An entry order is requested. -/
  | sent (k : String) (touches : Touches k w w') (c : Command) (busy : Busy i c)
      (pending : c.state ≠ .reserved) (before : visible w k = some c) (unsent : ¬Sent w k)
      (entry : stored? w' k = stored? w k) (row : row? w' k = row? w k)
      (orders : entryKeys w'.remote.orders = k :: entryKeys w.remote.orders)

/-- What may arrive from outside. -/
inductive Arrival (w w' : ServiceWorld X) : Prop
  | quiet (entries : ∀ k, stored? w' k = stored? w k) (rows : ∀ k, row? w' k = row? w k)
      (orders : entryKeys w'.remote.orders = entryKeys w.remote.orders)
      (usable : w'.mem.usable = true → w.mem.usable = true)
  /-- A candidate is delivered, whose row, if any, is available. -/
  | delivered (k : String) (touches : Touches k w w') (c : Command) (absent : stored? w k = none)
      (after : stored? w' k = some c) (state : c.state = .available) (source : c.source = .direct)
      (row : row? w' k = row? w k) (available : ∀ r, row? w k = some r → r.state = .available)
      (orders : entryKeys w'.remote.orders = entryKeys w.remote.orders)
  /-- A row is published, or refreshed. -/
  | published (k : String) (touches : Touches k w w') (c : Command)
      (available : ∀ r, row? w k = some r → r.state = .available)
      (after : row? w' k = some c) (state : c.state = .available) (entry : stored? w' k = stored? w k)
      (orders : entryKeys w'.remote.orders = entryKeys w.remote.orders)

/-! ## The stores stay exclusive -/

theorem Touches.visible {k k' : String} {w w' : ServiceWorld X} (h : Touches k w w')
    (hk : k' ≠ k) : visible w' k' = visible w k' := by
  unfold Node.visible
  rw [show w'.mem.direct.get? k' = _ from h.entries k' hk,
    show w'.remote.tables.row? k' = _ from h.rows k' hk]

/-- The other candidates are as exclusive as before. -/
theorem Touches.exclusive {k : String} {w w' : ServiceWorld X} (h : Touches k w w')
    (hw : Exclusive w) (hk : ExclusiveAt w' k) (once : (entryKeys w'.remote.orders).Nodup) :
    Exclusive w' := by
  refine ⟨fun k' => ?_, once⟩
  by_cases hkk : k' = k
  · rwa [hkk]
  · have hold := hw.at_key k'
    refine ⟨?_, ?_, ?_⟩
    · rw [h.entries k' hkk, h.rows k' hkk]
      exact hold.delivered
    · rw [h.entries k' hkk, h.rows k' hkk]
      intro c hc hs
      obtain ⟨hst, hu, hrow⟩ := hold.shadow c hc hs
      exact ⟨hst, Bool.eq_false_iff.2 fun hu' => by simp [h.usable hu'] at hu, hrow⟩
    · rw [h.sent k' hkk, h.visible hkk]
      exact hold.sent

/-- What slot `j` relies on, when only copies of `k` change that it did not take. -/
theorem Touches.rely {k : String} {w w' : ServiceWorld X} (h : Touches k w w') {j : Slot}
    (before : ∀ c, Copy w k c → ¬Stamped j c) (after : ∀ c, Copy w' k c → ¬Stamped j c) :
    Rely j w w' where
  entries k' c hs := by
    by_cases hk : k' = k
    · subst hk
      exact ⟨fun hc => absurd hs (before c (.inl hc)), fun hc => absurd hs (after c (.inl hc))⟩
    · rw [h.entries k' hk]
  rows k' c hs := by
    by_cases hk : k' = k
    · subst hk
      exact ⟨fun hc => absurd hs (before c (.inr hc)), fun hc => absurd hs (after c (.inr hc))⟩
    · rw [h.rows k' hk]
  fresh k' c hs hrow hn := by
    by_cases hk : k' = k
    · subst hk
      exact absurd hs (before c (.inr hrow))
    · rwa [h.entries k' hk]
  unsent k' c hs hv hn := by
    by_cases hk : k' = k
    · subst hk
      exact absurd hs (before c (copy_of_visible hv))
    · rwa [h.sent k' hk]

/-- Nothing else than copies of `k` can come back, or be given up. -/
theorem Touches.forward {k : String} {w w' : ServiceWorld X} (h : Touches k w w')
    (ended : Ended w k → Ended w' k)
    (entries : ∀ c, Ended w k → stored? w' k = some c → c.state.Active →
      ∃ d, stored? w k = some d ∧ d.state.Active)
    (rows : ∀ c, Ended w k → row? w' k = some c → c.state.Active →
      ∃ d, row? w k = some d ∧ d.state.Active)
    (held : ∀ i, WorksOn w i k → WorksOn w' i k ∨ Ended w' k) : Forward w w' where
  ended k' he := by
    by_cases hk : k' = k
    · exact hk ▸ ended (hk ▸ he)
    · unfold Ended Copy at he ⊢
      rwa [h.entries k' hk, h.rows k' hk]
  entries k' c he hc ha := by
    by_cases hk : k' = k
    · subst hk
      exact entries c he hc ha
    · rw [h.entries k' hk] at hc
      exact ⟨c, hc, ha⟩
  rows k' c he hc ha := by
    by_cases hk : k' = k
    · subst hk
      exact rows c he hc ha
    · rw [h.rows k' hk] at hc
      exact ⟨c, hc, ha⟩
  held i k' hi := by
    by_cases hk : k' = k
    · subst hk
      exact held i hi
    · left
      unfold WorksOn Copy at hi ⊢
      rwa [h.entries k' hk, h.rows k' hk]

section

variable {Free : Slot → ServiceWorld X → Prop} {owner : Slot → String} {i : Slot}
  {w w' : ServiceWorld X}

/-- An entry in memory that is available was delivered, and so its row is available. -/
theorem Exclusive.copy_available (h : Exclusive w) {k : String} {c d : Command}
    (hc : stored? w k = some c) (hs : c.state = .available) (hd : Copy w k d) :
    d.state = .available := by
  have hdirect : c.source = .direct := by
    by_contra hn
    exact ((h.at_key k).shadow c hc hn).1 hs
  rcases hd with hd | hd
  · rwa [← Option.some.inj (hc.symm.trans hd)]
  · exact (h.at_key k).delivered c d hc hdirect hd

/-- The stores stay exclusive. -/
theorem Change.exclusive (h : Change Free owner i w w') (hw : Exclusive w) : Exclusive w' := by
  cases h with
  | quiet entries rows orders usable =>
    refine ⟨fun k => ?_, orders ▸ hw.once⟩
    have hold := hw.at_key k
    refine ⟨by rw [entries, rows]; exact hold.delivered, fun c hc hs => ?_, ?_⟩
    · obtain ⟨hst, hu, hrow⟩ := hold.shadow c (entries k ▸ hc) hs
      exact ⟨hst, Bool.eq_false_iff.2 fun hu' => by simp [usable hu'] at hu, by rwa [rows]⟩
    · intro hsent
      unfold Sent at hsent
      rw [orders] at hsent
      unfold visible
      rw [show w'.mem.direct.get? k = _ from entries k,
        show w'.remote.tables.row? k = _ from rows k]
      exact hold.sent hsent
  | moved k touches c c' busy before after later source row orders =>
    have hold := hw.at_key k
    refine touches.exclusive hw ⟨fun d r hd hs hr => ?_, fun d hd hs => ?_, fun hsent => ?_⟩
      (orders ▸ hw.once)
    · obtain rfl : c' = d := Option.some.inj (after.symm.trans hd)
      exact hold.delivered c r before (source ▸ hs) (row ▸ hr)
    · obtain rfl : c' = d := Option.some.inj (after.symm.trans hd)
      obtain ⟨-, hu, r, hr, hrs, hslot⟩ := hold.shadow c before (source ▸ hs)
      exact ⟨later.state.1, Bool.eq_false_iff.2 fun hu' => by simp [touches.usable hu'] at hu,
        r, row ▸ hr, hrs, hslot.trans later.slotId.symm⟩
    · obtain ⟨d, hd, hd₁, hd₂⟩ := hold.sent (by unfold Sent at hsent ⊢; rwa [orders] at hsent)
      obtain rfl : c = d := Option.some.inj ((visible_of_entry before).symm.trans hd)
      exact ⟨c', visible_of_entry after, later.state.1, fun hr =>
        later.state.2.elim (fun he => hd₂ (he ▸ hr)) fun hn => hn hr⟩
  | shadowed k touches c c' stamped absent before after source slotId ownerId state active row
      given_up orders =>
    refine touches.exclusive hw ⟨fun d r hd hs hr => ?_, fun d hd hs => ?_, fun hsent => ?_⟩
      (orders ▸ hw.once)
    · obtain rfl : c' = d := Option.some.inj (after.symm.trans hd)
      rw [source] at hs
      cases hs
    · obtain rfl : c' = d := Option.some.inj (after.symm.trans hd)
      exact ⟨state.1, given_up, c, row ▸ before, stamped.2, stamped.1.trans slotId.symm⟩
    · exact ⟨c', visible_of_entry after, state⟩
  | updated k touches c c' busy absent before after later entry orders =>
    refine touches.exclusive hw ⟨fun d r hd hs hr => ?_, fun d hd hs => ?_, fun hsent => ?_⟩
      (orders ▸ hw.once)
    · rw [entry] at hd
      cases hd
    · rw [entry] at hd
      cases hd
    · obtain ⟨d, hd, hd₁, hd₂⟩ :=
        (hw.at_key k).sent (by unfold Sent at hsent ⊢; rwa [orders] at hsent)
      obtain rfl : c = d := Option.some.inj ((visible_of_row absent before).symm.trans hd)
      exact ⟨c', visible_of_row entry after, later.state.1, fun hr =>
        later.state.2.elim (fun he => hd₂ (he ▸ hr)) fun hn => hn hr⟩
  | reserved k touches c c' free before after reserves row orders =>
    have hold := hw.at_key k
    -- A shadow copy is never available, so what is reserved was delivered directly.
    have hdirect : c.source = .direct := by
      by_contra hn
      exact (hold.shadow c before hn).1 reserves.available
    refine touches.exclusive hw ⟨fun d r hd hs hr => ?_, fun d hd hs => ?_, fun hsent => ?_⟩
      (orders ▸ hw.once)
    · exact hold.delivered c r before hdirect (row ▸ hr)
    · obtain rfl : c' = d := Option.some.inj (after.symm.trans hd)
      exact absurd (reserves.source.trans hdirect) hs
    · obtain ⟨d, hd, hd₁, -⟩ := hold.sent (by unfold Sent at hsent ⊢; rwa [orders] at hsent)
      obtain rfl : c = d := Option.some.inj ((visible_of_entry before).symm.trans hd)
      exact absurd reserves.available hd₁
  | claimed k touches c c' free absent before after reserves entry orders =>
    refine touches.exclusive hw ⟨fun d r hd hs hr => ?_, fun d hd hs => ?_, fun hsent => ?_⟩
      (orders ▸ hw.once)
    · rw [entry] at hd
      cases hd
    · rw [entry] at hd
      cases hd
    · obtain ⟨d, hd, hd₁, -⟩ :=
        (hw.at_key k).sent (by unfold Sent at hsent ⊢; rwa [orders] at hsent)
      obtain rfl : c = d := Option.some.inj ((visible_of_row absent before).symm.trans hd)
      exact absurd reserves.available hd₁
  | sent k touches c busy pending before unsent entry row orders =>
    have hold := hw.at_key k
    have hvis : visible w' k = visible w k := by
      unfold visible
      rw [show w'.mem.direct.get? k = _ from entry, show w'.remote.tables.row? k = _ from row]
    refine touches.exclusive hw ⟨by rw [entry, row]; exact hold.delivered, fun d hd hs => ?_,
      fun _ => ⟨c, hvis.trans before, busy.2.ne_available, pending⟩⟩ ?_
    · obtain ⟨hst, hu, hrow⟩ := hold.shadow d (entry ▸ hd) hs
      exact ⟨hst, Bool.eq_false_iff.2 fun hu' => by simp [touches.usable hu'] at hu, by rwa [row]⟩
    · rw [orders]
      exact List.nodup_cons.2 ⟨unsent, hw.once⟩

theorem Arrival.exclusive (h : Arrival w w') (hw : Exclusive w) : Exclusive w' := by
  cases h with
  | quiet entries rows orders usable =>
    -- A quiet arrival is a quiet change, whoever makes it.
    have same : Change (fun _ _ => True) (fun _ => "") 0 w w' := .quiet entries rows orders usable
    exact same.exclusive hw
  | delivered k touches c absent after state source row available orders =>
    refine touches.exclusive hw ⟨fun d r hd hs hr => available r (row ▸ hr), fun d hd hs => ?_,
      fun hsent => ?_⟩ (orders ▸ hw.once)
    · obtain rfl : c = d := Option.some.inj (after.symm.trans hd)
      exact absurd source hs
    · obtain ⟨d, hd, hd₁, -⟩ :=
        (hw.at_key k).sent (by unfold Sent at hsent ⊢; rwa [orders] at hsent)
      rcases copy_of_visible hd with he | hr
      · rw [absent] at he
        cases he
      · exact absurd (available d hr) hd₁
  | published k touches c available after state entry orders =>
    have hold := hw.at_key k
    refine touches.exclusive hw ⟨fun d r hd hs hr => ?_, fun d hd hs => ?_, fun hsent => ?_⟩
      (orders ▸ hw.once)
    · rwa [← Option.some.inj (after.symm.trans hr)]
    · obtain ⟨-, -, r, hr, hrs, -⟩ := hold.shadow d (entry ▸ hd) hs
      exact absurd (available r hr) hrs
    · obtain ⟨d, hd, hds⟩ := hold.sent (by unfold Sent at hsent ⊢; rwa [orders] at hsent)
      rcases copy_of_visible hd with he | hr
      · exact ⟨d, visible_of_entry (entry.trans he), hds⟩
      · exact absurd (available d hr) hds.1

/-! ## The others are spared -/

theorem rely_of_same {j : Slot} (entries : ∀ k, stored? w' k = stored? w k)
    (rows : ∀ k, row? w' k = row? w k)
    (orders : entryKeys w'.remote.orders = entryKeys w.remote.orders) : Rely j w w' where
  entries k c _ := by rw [entries]
  rows k c _ := by rw [rows]
  fresh k c _ _ hn := by rwa [entries]
  unsent k c _ _ hn := by
    unfold Sent at hn ⊢
    rwa [orders]

/-- A copy taken by slot `i` keeps the others away. -/
theorem Exclusive.not_stamped (h : Exclusive w) {k : String} {j : Slot} {c : Command}
    (hc : Copy w k c) (hi : Stamped i c) (hj : j ≠ i) : ∀ d, Copy w k d → ¬Stamped j d :=
  fun _ hd hs => hj (h.stamped_unique hd hs hc hi)

theorem not_stamped_of_available {k : String} {j : Slot}
    (h : ∀ d, Copy w k d → d.state = .available) : ∀ d, Copy w k d → ¬Stamped j d :=
  fun d hd hs => hs.2 (h d hd)

theorem Later.stamped {c c' : Command} (h : Later c c') (hc : Busy i c) : Stamped i c' :=
  ⟨h.slotId.trans hc.1, h.state.1⟩

theorem Reserves.stamped {c c' : Command} (h : Reserves i (owner i) c c') : Stamped i c' :=
  ⟨h.slotId, by rw [h.state]; decide⟩

theorem Change.rely (h : Change Free owner i w w') (hw : Exclusive w) {j : Slot} (hj : j ≠ i) :
    Rely j w w' := by
  have hw' := h.exclusive hw
  -- Each change touches one key, whose copies carry the stamp of `i` before and after: not that
  -- of `j`.
  cases h with
  | quiet entries rows orders usable => exact rely_of_same entries rows orders
  | moved k touches c c' busy before after later source row orders =>
    exact touches.rely (hw.not_stamped (.inl before) busy.stamped hj)
      (hw'.not_stamped (.inl after) (later.stamped busy) hj)
  | shadowed k touches c c' stamped absent before after source slotId ownerId state active row
      given_up orders =>
    exact touches.rely (hw.not_stamped (.inr before) stamped hj)
      (hw'.not_stamped (.inl after) ⟨slotId, state.1⟩ hj)
  | updated k touches c c' busy absent before after later entry orders =>
    exact touches.rely (hw.not_stamped (.inr before) busy.stamped hj)
      (hw'.not_stamped (.inr after) (later.stamped busy) hj)
  | reserved k touches c c' free before after reserves row orders =>
    exact touches.rely
      (not_stamped_of_available fun d hd => hw.copy_available before reserves.available hd)
      (hw'.not_stamped (.inl after) reserves.stamped hj)
  | claimed k touches c c' free absent before after reserves entry orders =>
    refine touches.rely (not_stamped_of_available fun d hd => ?_)
      (hw'.not_stamped (.inr after) reserves.stamped hj)
    rcases hd with hd | hd
    · rw [absent] at hd
      cases hd
    · rw [← Option.some.inj (before.symm.trans hd)]
      exact reserves.available
  | sent k touches c busy pending before unsent entry row orders =>
    have hsame : ∀ d, Copy w' k d ↔ Copy w k d := fun d => by
      unfold Copy
      rw [entry, row]
    exact touches.rely (hw.not_stamped (copy_of_visible before) busy.stamped hj) fun d hd =>
      hw.not_stamped (copy_of_visible before) busy.stamped hj d ((hsame d).1 hd)

theorem Arrival.rely (h : Arrival w w') (j : Slot) : Rely j w w' := by
  cases h with
  | quiet entries rows orders usable => exact rely_of_same entries rows orders
  | delivered k touches c absent after state source row available orders =>
    refine touches.rely (not_stamped_of_available fun d hd => ?_)
      (not_stamped_of_available fun d hd => ?_)
    · rcases hd with hd | hd
      · rw [absent] at hd
        cases hd
      · exact available d hd
    · rcases hd with hd | hd
      · rwa [← Option.some.inj (after.symm.trans hd)]
      · exact available d (row ▸ hd)
  | published k touches c available after state entry orders =>
    -- the entry in memory, if any, stays as it is: only the row matters
    refine ⟨fun k' d hs => ?_, fun k' d hs => ?_, fun k' d hs hr hn => ?_, fun k' d hs hv hn => ?_⟩
    · by_cases hk : k' = k
      · rw [hk, entry]
      · rw [touches.entries k' hk]
    · by_cases hk : k' = k
      · subst hk
        refine ⟨fun hr => absurd (available d hr) hs.2, fun hr => ?_⟩
        obtain rfl : c = d := Option.some.inj (after.symm.trans hr)
        exact absurd state hs.2
      · rw [touches.rows k' hk]
    · by_cases hk : k' = k
      · subst hk
        rwa [entry]
      · rwa [touches.entries k' hk]
    · unfold Sent at hn ⊢
      rwa [orders]

/-! ## What has ended stays ended -/

theorem forward_of_same (entries : ∀ k, stored? w' k = stored? w k)
    (rows : ∀ k, row? w' k = row? w k) : Forward w w' where
  ended k he := by
    unfold Ended Copy at he ⊢
    rwa [entries, rows]
  entries k c _ hc ha := ⟨c, by rwa [← entries], ha⟩
  rows k c _ hc ha := ⟨c, by rwa [← rows], ha⟩
  held i k hi := by
    left
    unfold WorksOn Copy at hi ⊢
    rwa [entries, rows]

/-- What moves on stays with its slot, or ends. -/
theorem Later.worksOn {j : Slot} {k : String} {c c' : Command} (h : Later c c')
    (hc' : Copy w' k c') (hb : Busy j c) : WorksOn w' j k ∨ Ended w' k :=
  (CommandState.active_or_terminal h.state.1).imp
    (fun ha => ⟨c', hc', h.slotId.trans hb.1, ha⟩) fun ht => ⟨c', hc', ht⟩

theorem ended_iff {k : String} {c : Command} (hc : stored? w k = some c) (ha : ¬c.state.Terminal) :
    Ended w k ↔ ∃ d, row? w k = some d ∧ d.state.Terminal := by
  constructor
  · rintro ⟨d, hd | hd, ht⟩
    · rw [← Option.some.inj (hc.symm.trans hd)] at ht
      exact absurd ht ha
    · exact ⟨d, hd, ht⟩
  · exact fun ⟨d, hd, ht⟩ => ⟨d, .inr hd, ht⟩

theorem not_ended_of_row {k : String} {c : Command} (hn : stored? w k = none)
    (hc : row? w k = some c) (ha : ¬c.state.Terminal) : ¬Ended w k := by
  rintro ⟨d, hd | hd, ht⟩
  · rw [hn] at hd
    cases hd
  · rw [← Option.some.inj (hc.symm.trans hd)] at ht
    exact ha ht

/-- A candidate that has not ended may come back in any way. -/
theorem Touches.forward_of_not_ended {k : String} (h : Touches k w w') (hn : ¬Ended w k)
    (held : ∀ i, WorksOn w i k → WorksOn w' i k ∨ Ended w' k) : Forward w w' :=
  h.forward (fun he => absurd he hn) (fun _ he => absurd he hn) (fun _ he => absurd he hn) held

theorem not_worksOn_of_available {j : Slot} {k : String}
    (h : ∀ d, Copy w k d → d.state = .available) : ¬WorksOn w j k :=
  fun ⟨d, hd, hb⟩ => not_stamped_of_available h d hd hb.stamped

theorem Change.forward (h : Change Free owner i w w') (hw : Exclusive w) : Forward w w' := by
  -- No change brings an ended key back, or takes a busy one from its slot; only the changes of an
  -- entry or a row have to be looked at.
  cases h with
  | quiet entries rows orders usable => exact forward_of_same entries rows
  | moved k touches c c' busy before after later source row orders =>
    refine touches.forward (fun he => ?_) (fun _ _ _ _ => ⟨c, before, busy.2⟩)
      (fun d _ hd ha => ⟨d, by rwa [← row], ha⟩) fun j ⟨d, hd, hb⟩ => ?_
    · obtain ⟨d, hd, ht⟩ := (ended_iff before busy.2.not_terminal).1 he
      exact ⟨d, .inr (row.trans hd), ht⟩
    · rcases hd with hd | hd
      · obtain rfl : c = d := Option.some.inj (before.symm.trans hd)
        exact later.worksOn (.inl after) hb
      · exact .inl ⟨d, .inr (row.trans hd), hb⟩
  | shadowed k touches c c' stamped absent before after source slotId ownerId state active row
      given_up orders =>
    refine touches.forward (fun he => ?_) (fun d he hd ha => ?_)
      (fun d _ hd ha => ⟨d, by rwa [← row], ha⟩) fun j ⟨d, hd, hb⟩ => ?_
    · obtain ⟨d, hd | hd, ht⟩ := he
      · rw [absent] at hd
        cases hd
      · exact ⟨d, .inr (row.trans hd), ht⟩
    · obtain rfl : c' = d := Option.some.inj (after.symm.trans hd)
      exact absurd he (not_ended_of_row absent before (active ha).not_terminal)
    · rcases hd with hd | hd
      · rw [absent] at hd
        cases hd
      · exact .inl ⟨d, .inr (row.trans hd), hb⟩
  | updated k touches c c' busy absent before after later entry orders =>
    refine touches.forward_of_not_ended (not_ended_of_row absent before busy.2.not_terminal)
      fun j ⟨d, hd, hb⟩ => ?_
    rcases hd with hd | hd
    · rw [absent] at hd
      cases hd
    · obtain rfl : c = d := Option.some.inj (before.symm.trans hd)
      exact later.worksOn (.inr after) hb
  | reserved k touches c c' free before after reserves row orders =>
    have available := fun d => hw.copy_available (d := d) before reserves.available
    refine touches.forward_of_not_ended (fun ⟨d, hd, ht⟩ => ?_)
      fun j hj => absurd hj (not_worksOn_of_available available)
    rw [available d hd] at ht
    exact absurd ht (by decide)
  | claimed k touches c c' free absent before after reserves entry orders =>
    refine touches.forward_of_not_ended (not_ended_of_row absent before ?_)
      fun j hj => absurd hj (not_worksOn_of_available fun d hd => ?_)
    · rw [reserves.available]
      decide
    · rcases hd with hd | hd
      · rw [absent] at hd
        cases hd
      · exact Option.some.inj (before.symm.trans hd) ▸ reserves.available
  | sent k touches c busy pending before unsent entry row orders =>
    refine touches.forward (fun he => ?_) (fun d _ hd ha => ⟨d, by rwa [← entry], ha⟩)
      (fun d _ hd ha => ⟨d, by rwa [← row], ha⟩) fun j hj => .inl ?_
    · unfold Ended Copy at he ⊢
      rwa [entry, row]
    · unfold WorksOn Copy at hj ⊢
      rwa [entry, row]

theorem Arrival.forward (h : Arrival w w') : Forward w w' := by
  cases h with
  | quiet entries rows orders usable => exact forward_of_same entries rows
  | delivered k touches c absent after state source row available orders =>
    have copies : ∀ d, Copy w k d → d.state = .available := fun d hd => hd.elim
      (fun he => absurd (absent.symm.trans he) (Option.some_ne_none d).symm) (available d)
    refine touches.forward_of_not_ended (fun ⟨d, hd, ht⟩ => ?_)
      fun j hj => absurd hj (not_worksOn_of_available copies)
    rw [copies d hd] at ht
    exact absurd ht (by decide)
  | published k touches c available after state entry orders =>
    refine touches.forward (fun ⟨d, hd, ht⟩ => ?_) (fun d _ hd ha => ⟨d, by rwa [← entry], ha⟩)
      (fun d _ hd ha => ?_) fun j ⟨d, hd, hb⟩ => ?_
    · rcases hd with hd | hd
      · exact ⟨d, .inl (entry.trans hd), ht⟩
      · rw [available d hd] at ht
        exact absurd ht (by decide)
    · obtain rfl : c = d := Option.some.inj (after.symm.trans hd)
      rw [state] at ha
      exact absurd ha (by decide)
    · rcases hd with hd | hd
      · exact .inl ⟨d, .inl (entry.trans hd), hb⟩
      · exact absurd (available d hd) hb.stamped.2

end

end IntradayBot.Node
