import IntradayBot.Node.Ownership

/-!
# Taking commands

How a slot comes by its command: it asks for the one it owns, and claims one if
there is none. What both calls return is held, and what was held when they were
called is recorded.
-/

namespace IntradayBot.Node

open Coop HybridRepository

variable {X : ExchangeModel} {config : Config}
  {ok : Condition Slot Memory (Remote X) JsError Op.Val} {E : Extension X config ok} {i : Slot}
  {w w' : ServiceWorld X}

/-! ## What a slot holds -/

theorem Holds.at {n : Prop} {c : Command} (h : Holds config i n c w) :
    At i (some c.candidateKey) w := by
  obtain ⟨d, hd, hst, hslot, -⟩ := h.copy
  exact ⟨d, copy_of_visible hd, hslot.trans h.busy.1, hst ▸ h.busy.2⟩

theorem at_stable (E : Extension X config ok) (i : Slot) (held : Option String) :
    (contract E).Stable i (At i held) := by
  intro w w' hr _ h
  have hr' : Rely i w w' := hr
  have copy : ∀ k c, Busy i c → (Copy w k c ↔ Copy w' k c) := fun k c hc =>
    or_congr (hr'.entries k c hc.stamped) (hr'.rows k c hc.stamped)
  cases held with
  | some k =>
    obtain ⟨c, hc, hb⟩ := h
    exact ⟨c, (copy k c hb).1 hc, hb⟩
  | none => exact fun k c hc hb => h k c ((copy k c hb).2 hc) hb

/-- The key recorded as held is that of a command held. -/
theorem at_heldKey (w : ServiceWorld X) (i : Slot) : At i (heldKey w i) w := by
  have mem : ∀ c, c ∈ w.mem.activeDirect ++ w.remote.tables.activeRows ↔
      Copy w c.candidateKey c ∧ c.state.Active := fun c => by
    rw [List.mem_append, Memory.activeDirect, List.mem_filter, CommandMap.mem_commands,
      Tables.mem_activeRows]
    simp [Copy, or_and_right]
  unfold heldKey
  cases hf : (w.mem.activeDirect ++ w.remote.tables.activeRows).find? _ with
  | some c =>
    obtain ⟨hc, ha⟩ := (mem c).1 (List.mem_of_find?_eq_some hf)
    have hs := List.find?_some hf
    exact ⟨c, hc, by simpa using hs, ha⟩
  | none =>
    intro k c hc hb
    have hkey : c.candidateKey = k := by
      rcases hc with hc | hc <;> exact CommandMap.candidateKey_of_get? hc
    have := List.find?_eq_none.1 hf c ((mem c).2 ⟨hkey ▸ hc, hb.2⟩)
    exact this (by simpa using hb.1)

/-! ## The command owned -/

/-- A slot's rows are not hidden. -/
def Shown (i : Slot) (w : ServiceWorld X) : Prop :=
  ∀ k c, row? w k = some c → Stamped i c → stored? w k = none

theorem shown_stable (E : Extension X config ok) (i : Slot) : (contract E).Stable i (Shown i) := by
  intro w w' hr _ h k c hc hs
  have hr' : Rely i w w' := hr
  have hrow := (hr'.rows k c hs).2 hc
  exact hr'.fresh k c hs hrow (h k c hrow hs)

theorem Exclusive.shown (hw : Exclusive w) (hu : w.mem.usable = true) : Shown i w := by
  intro k c hc hs
  cases he : stored? w k with
  | none => rfl
  | some d =>
    by_cases hd : d.source = .direct
    · exact absurd ((hw.at_key k).delivered d c he hd hc) hs.2
    · have := ((hw.at_key k).shadow d he hd).2.1
      simp [this] at hu

theorem unowned_stable (E : Extension X config ok) (i : Slot) :
    (contract E).Stable i fun w => Unowned config i (stored? w) := by
  intro w w' hr _ h k c hc hb
  have hr' : Rely i w w' := hr
  exact h k c ((hr'.entries k c hb.stamped).2 hc) hb

/-- What is found in memory is held. -/
theorem ownedDirect_some {c : Command}
    (h : ownedDirect (SlotLoop.owner config i) i.id w.mem = some c) :
    Holds config i False c w := by
  have hmem := CommandMap.mem_commands.1 (List.mem_of_find?_eq_some h)
  have hc := List.find?_some h
  simp only [decide_eq_true_eq] at hc
  exact ⟨⟨hc.2.1, hc.2.2⟩, hc.1, ⟨c, visible_of_entry hmem, rfl, rfl, rfl⟩, False.elim⟩

theorem ownedDirect_none (h : ownedDirect (SlotLoop.owner config i) i.id w.mem = none) :
    Unowned config i (stored? w) := by
  intro k c hc hb ho
  have hkey : c.candidateKey = k := CommandMap.candidateKey_of_get? hc
  have := List.find?_eq_none.1 h c (CommandMap.mem_commands.2 (hkey ▸ hc))
  simp [ho, hb.1, hb.2] at this

/-- What a slot is given: a command held, or nothing, when there was nothing. -/
def Given (E : Extension X config ok) (i : Slot) (r : Option Command) (w : ServiceWorld X) : Prop :=
  match r with
  | some c => Holds config i False c w
  | none => E.Free i w

theorem given_stable (E : Extension X config ok) (i : Slot) (r : Option Command) :
    (contract E).Stable i (Given E i r) := by
  cases r with
  | some c => exact holds_stable E i False c
  | none => exact fun _ _ hr _ h => E.stable_free hr h

/-- The rows are asked for the command owned. -/
theorem selectOwned_given (E : Extension X config ok) (i : Slot) :
    Triple (service X config) ok (contract E) i
      (fun w => Unowned config i (stored? w) ∧ Shown i w)
      (database (.selectOwned (SlotLoop.owner config i) i.id)) (Given E i)
      fun _ w => Unowned config i (stored? w) := by
  have unowned := unowned_stable E i
  refine .request (unowned.and (shown_stable E i)) (given_stable E i) (fun _ => unowned)
    fun w a r hw h ha hok => ?_
  obtain ⟨out, rfl, rfl⟩ := ha
  obtain ⟨hk, hr⟩ := remote_keeps (i := i) hw hok
    (DbOp.Quiet.commands_answer (o := .selectOwned _ _) trivial out _) rfl
  refine ⟨hk, ?_⟩
  -- A failed query leaves what was known; only an answer tells of a row.
  cases out with
  | lost reason => exact unowned _ _ hr hk.inv h.1
  | unacknowledged locked reason => exact unowned _ _ hr hk.inv h.1
  | done locked =>
    simp only [DbOp.answer, DbOp.perform, Prod.map]
    cases hf : w.remote.tables.activeRows.find? _ with
    | some c =>
      obtain ⟨hrow, ha⟩ := Tables.mem_activeRows.1 (List.mem_of_find?_eq_some hf)
      have hc := List.find?_some hf
      simp only [decide_eq_true_eq] at hc
      have hb : Busy i c := ⟨hc.2, ha⟩
      have hvis : visible w c.candidateKey = some c :=
        visible_of_row (h.2 _ c hrow hb.stamped) hrow
      exact given_stable E i (some c) _ _ hr hk.inv
        ⟨hb, hc.1, ⟨c, hvis, rfl, rfl, rfl⟩, False.elim⟩
    | none =>
      refine E.stable_free hr (E.free hw.exclusive hw.inv h.1 fun _ k c hc hb ho => ?_)
      have hkey : c.candidateKey = k := CommandMap.candidateKey_of_get? hc
      have := List.find?_eq_none.1 hf c (Tables.mem_activeRows.2 ⟨hkey ▸ hc, hb.2⟩)
      simp [ho, hb.1] at this

theorem Given.postgresql {r : Option Command} (h : Given E i r w) :
    Given E i (r.map fun c => { c with source := .postgresql }) w := by
  cases r with
  | some c => exact ⟨h.busy, h.owner, h.copy, False.elim⟩
  | none => exact h

/-- The call for the command owned. -/
theorem owned_given (E : Extension X config ok) (i : Slot) {F : JsError → ServiceWorld X → Prop} :
    Triple (service X config) ok (contract E) i (fun _ => True)
      (ownedActiveCommand (SlotLoop.owner config i) i.id) (Given E i) F := by
  have unowned := unowned_stable E i
  have always : (contract E).Stable i fun _ => True := fun _ _ _ _ _ => trivial
  -- The map is read first. What the database adds depends on whether it was usable then.
  refine .bind (Q := fun r w => match r.1 with
    | some c => Holds config i False c w
    | none => Unowned config i (stored? w) ∧ if r.2 then Shown i w else E.Free i w)
    (.read always (fun (direct, usable) => ?_) fun w hw _ => ?_) fun (direct, usable) => ?_
  · cases direct with
    | some c => exact holds_stable E i False c
    | none =>
      cases usable with
      | true => exact unowned.and (shown_stable E i)
      | false => exact unowned.and fun _ _ hr _ h => E.stable_free hr h
  · dsimp only
    cases hd : ownedDirect (SlotLoop.owner config i) i.id w.mem with
    | some c => exact ownedDirect_some hd
    | none =>
      refine ⟨ownedDirect_none hd, ?_⟩
      split
      · exact hw.exclusive.shown ‹_›
      · rename_i hu
        exact E.free hw.exclusive hw.inv (ownedDirect_none hd) fun h => absurd h hu
  · cases direct with
    | some c => exact .done_ok (given_stable E i (some c)) fun _ _ h => h
    | none =>
      cases usable with
      | false => exact .done_ok (given_stable E i none) fun _ _ h => h.2
      | true =>
        refine .handle (.bind (selectOwned_given E i) fun row =>
          .done_ok (given_stable E i _) fun _ _ h => h.postgresql) fun e => ?_
        refine .bind (Q := fun _ => E.Free i)
          (.atomically unowned (fun _ _ _ hr _ h => E.stable_free hr h) fun w hw h hok => ?_)
          fun _ => .done_ok (given_stable E i none) fun _ _ h => h
        obtain ⟨hk, hr⟩ := (calm_quiet E i).sync _ w (quiet_degrade e.message) hw hok
        refine ⟨hk, E.free hk.inv.exclusive hk.inv.inv (unowned _ _ hr hk.inv h) fun hu => ?_⟩
        simp [Memory.usable, Memory.degrade] at hu

/-! ## Claims -/

/-- What a claim leaves. -/
def Taken (config : Config) (i : Slot) (r : Option Command) (w : ServiceWorld X) : Prop :=
  ∀ c, r = some c → Holds config i False c w

theorem taken_stable (E : Extension X config ok) (i : Slot) (r : Option Command) :
    (contract E).Stable i (Taken config i r) :=
  fun w w' hr hi h c hc => holds_stable E i False c w w' hr hi (h c hc)

theorem taken_none : Taken config i none w := fun _ h => by cases h

/-- The candidate found in memory is reserved. -/
theorem claimDirect_taken (E : Extension X config ok) (i : Slot)
    {F : JsError → ServiceWorld X → Prop} :
    Triple (service X config) ok (contract E) i (E.Free i)
      (Prog.atomically fun m => (((claimDirect (SlotLoop.owner config i) i.id m).1, m.usable, m.now),
        (claimDirect (SlotLoop.owner config i) i.id m).2))
      (fun r w => match r.1 with
        | some c => Taken config i (some c) w
        | none => E.Free i w) F := by
  have free : (contract E).Stable i (E.Free i) := fun _ _ hr _ h => E.stable_free hr h
  refine .atomically free (fun (r, _, _) => ?_) fun w hw h hok => ?_
  · cases r with
    | some c => exact taken_stable E i (some c)
    | none => exact free
  unfold claimDirect at hok ⊢
  -- The map is searched and written without an await in between: no other slot can take the
  -- candidate.
  cases he : firstAvailable w.mem with
  | none =>
    simp only [he] at hok ⊢
    have hchange : Change E.Free (SlotLoop.owner config) i w w :=
      change_of_same rfl rfl rfl fun h => h
    exact ⟨hchange.keeps rfl hw hok, h⟩
  | some stored =>
    simp only [he] at hok ⊢
    obtain ⟨hbefore, havail⟩ := firstAvailable_some he
    have hget := CommandMap.get?_put w.mem.direct { stored with
      state := .reserved
      slotId := some i.id
      ownerId := some (SlotLoop.owner config i)
      updatedAt := w.mem.now }
    have hafter := (hget stored.candidateKey).trans (if_pos rfl)
    refine ⟨Change.keeps (.reserved stored.candidateKey ⟨fun k hk => (hget k).trans (if_neg hk),
      fun _ _ => rfl, fun _ _ => .rfl, fun h => h⟩ stored _ h hbefore hafter
      ⟨havail, rfl, rfl, rfl, rfl⟩ rfl rfl) rfl hw hok, fun c hc => ?_⟩
    obtain rfl := Option.some.inj hc
    exact ⟨⟨rfl, CommandState.active_reserved⟩, rfl, ⟨_, visible_of_entry hafter, rfl, rfl, rfl⟩,
      False.elim⟩

/-- A row is claimed for a slot that is free. -/
theorem claimed_taken {r : Remote X} {locked : String → Bool} {now : ℕ}
    {l : Label Slot JsError Op.Val} (hw : (contract E).inv w) (h : E.Free i w)
    (hok : ok w l ⟨w.mem, r⟩)
    (tables : r.tables = (w.remote.tables.claim locked (SlotLoop.owner config i) i.id now).2)
    (orders : r.orders = w.remote.orders) :
    (contract E).Keeps i w ⟨w.mem, r⟩ ∧
      Taken config i (w.remote.tables.claim locked (SlotLoop.owner config i) i.id now).1
        ⟨w.mem, r⟩ := by
  -- Either no row was free, or one row changed and no other.
  obtain hnone | ⟨row, claimed, hrow, havail, -, -, rfl, hsome, hrows⟩ :=
    w.remote.tables.claim_cases locked (SlotLoop.owner config i) i.id now
  · rw [hnone] at tables ⊢
    exact ⟨(remote_keeps hw hok (congrArg _ tables) (congrArg _ orders)).1, taken_none⟩
  · rw [hsome]
    rw [← tables] at hrows
    have hafter := (hrows row.candidateKey).trans (if_pos rfl)
    have habsent : stored? w row.candidateKey = none :=
      (E.disjoint hok).claimed _ row _ hrow havail hafter (by simp)
    have hchange : Change E.Free (SlotLoop.owner config) i w ⟨w.mem, r⟩ :=
      .claimed row.candidateKey ⟨fun _ _ => rfl, fun k hk => (hrows k).trans (if_neg hk),
        fun k _ => by unfold Sent; rw [orders], fun h => h⟩ row _ h habsent hrow hafter
        ⟨havail, rfl, rfl, rfl, rfl⟩ habsent (congrArg _ orders)
    refine ⟨hchange.keeps rfl hw hok, fun c hc => ?_⟩
    obtain rfl := Option.some.inj hc
    exact ⟨⟨rfl, CommandState.active_reserved⟩, rfl,
      ⟨_, visible_of_row habsent hafter, rfl, rfl, rfl⟩, False.elim⟩

theorem databaseClaim_taken (E : Extension X config ok) (i : Slot) (now : ℕ) :
    Triple (service X config) ok (contract E) i (E.Free i)
      (database (.claim (SlotLoop.owner config i) i.id now)) (Taken config i) fun _ _ => True := by
  have free : (contract E).Stable i (E.Free i) := fun _ _ hr _ h => E.stable_free hr h
  refine .request free (taken_stable E i) (fun _ _ _ _ _ _ => trivial) fun w a r hw h ha hok => ?_
  obtain ⟨out, rfl, rfl⟩ := ha
  cases out with
  | done locked => exact claimed_taken hw h hok rfl rfl
  | lost reason => exact ⟨(remote_keeps hw hok rfl rfl).1, trivial⟩
  | unacknowledged locked reason => exact ⟨(claimed_taken hw h hok rfl rfl).1, trivial⟩

/-- The call for a candidate. -/
theorem claim_taken (E : Extension X config ok) (i : Slot) :
    Triple (service X config) ok (contract E) i (E.Free i)
      (claim (SlotLoop.owner config i) i.id) (Taken config i) fun _ _ => True := by
  have free : (contract E).Stable i (E.Free i) := fun _ _ hr _ h => E.stable_free hr h
  have quiet : ∀ {α : Type} {p : Proc α}, p.All Quiet QuietOp →
      Triple (service X config) ok (contract E) i (E.Free i) p (fun _ => E.Free i)
        fun _ _ => True := fun h =>
    ((calm_quiet E i).triple h free).conseq (fun _ _ h => h) (fun _ _ _ h => h) fun _ _ _ _ => trivial
  have nothing : ∀ {P : ServiceWorld X → Prop}, Triple (service X config) ok (contract E) i P
      (.done (.ok none)) (Taken config i) fun _ _ => True :=
    .done_ok (taken_stable E i none) fun _ _ _ => taken_none
  refine .bind (quiet (.require _ _)) fun _ => .bind (quiet activeCommands_quiet) fun active => ?_
  split
  · exact nothing
  · refine .bind (claimDirect_taken E i) fun (direct, usable, now) => ?_
    -- A direct candidate goes first; the table is asked only without one, and only while it is
    -- usable.
    cases direct with
    | some c => exact .done_ok (taken_stable E i (some c)) fun _ _ h => h
    | none =>
      cases usable with
      | false => exact nothing
      | true =>
        refine .handle (E := fun _ _ => True) (.bind (.bind (quiet (.require _ _))
          fun _ => databaseClaim_taken E i now) fun row =>
          .done_ok (taken_stable E i _) fun w _ h c hc => ?_) fun e => ?_
        · obtain ⟨d, rfl, rfl⟩ := Option.map_eq_some_iff.1 hc
          obtain ⟨hb, ho, hcopy, -⟩ := h d rfl
          exact ⟨hb, ho, hcopy, False.elim⟩
        · refine .bind (Q := fun _ _ => True) (((calm_quiet E i).triple (.modify (quiet_degrade _))
            fun _ _ _ _ _ => trivial).conseq (fun _ _ h => h) (fun _ _ _ _ => trivial)
            fun _ _ _ _ => trivial) fun _ => nothing

/-! ## The record of the calls -/

/-- A call is recorded, of which the extension approves. -/
theorem log_keeps (call : SlotCall) (hcall : E.Call call) (hw : (contract E).inv w)
    {l : Label Slot JsError Op.Val}
    (hok : ok w l ⟨{ w.mem with calls := call :: w.mem.calls }, w.remote⟩) :
    (contract E).Keeps i w ⟨{ w.mem with calls := call :: w.mem.calls }, w.remote⟩ ∧
      Rely i w ⟨{ w.mem with calls := call :: w.mem.calls }, w.remote⟩ := by
  have hchange : Change E.Free (SlotLoop.owner config) i w
      ⟨{ w.mem with calls := call :: w.mem.calls }, w.remote⟩ :=
    change_of_same rfl rfl rfl fun h => h
  have hexclusive := hchange.exclusive hw.exclusive
  refine ⟨⟨⟨hexclusive, E.change hok hw.exclusive hexclusive hchange hw.inv, ?_⟩,
    fun j hj => hchange.rely hw.exclusive hj, hchange.forward hw.exclusive⟩,
    rely_of_change_same rfl rfl rfl⟩
  exact List.forall_mem_cons.2 ⟨hcall, hw.calls⟩

/-- What a call finds held is recorded with what it returns. -/
theorem recorded_triple {P : ServiceWorld X → Prop} {Q : Option Command → ServiceWorld X → Prop}
    {F : JsError → ServiceWorld X → Prop} {kind : CallKind} {call : Proc (Option Command)}
    (hP : (contract E).Stable i P) (hQ : ∀ r, (contract E).Stable i (Q r))
    (hF : ∀ e, (contract E).Stable i (F e))
    (h : ∀ held, Triple (service X config) ok (contract E) i (fun w => P w ∧ At i held w) call
      (fun r w => Q r w ∧ E.Call ⟨i, kind, held, r.map Command.candidateKey⟩) F) :
    Triple (service X config) ok (contract E) i P (SlotLoop.recorded i kind call) Q F := by
  refine .bind (Q := fun held w => P w ∧ At i held w)
    (.request hP (fun held => hP.and (at_stable E i held)) hF fun w a r hw hp ha hok => ?_)
    fun held => .bind (h held) fun r => .bind (Q := fun _ => Q r)
      (.atomically ((hQ r).and (Contract.Stable.const _)) (fun _ => hQ r) fun w hw hq hok => ?_)
      fun _ => .done_ok (hQ r) fun _ _ h => h
  · obtain ⟨hk, hr⟩ := (calm_quiet E i).call (.held i) w a r trivial hw ha hok
    obtain ⟨rfl, rfl⟩ := ha
    exact ⟨hk, hP _ _ hr hk.inv hp, at_heldKey w i⟩
  · obtain ⟨hk, hr⟩ := log_keeps (i := i) _ hq.2 hw hok
    exact ⟨hk, hQ r _ _ hr hk.inv hq.1⟩

/-- The command that a slot is to work on is held. -/
theorem nextCommand_taken (E : Extension X config ok) (i : Slot) :
    Triple (service X config) ok (contract E) i (fun _ => True) (SlotLoop.nextCommand config i)
      (Taken config i) fun _ _ => True := by
  have always : (contract E).Stable i fun _ => True := fun _ _ _ _ _ => trivial
  have free : (contract E).Stable i (E.Free i) := fun _ _ hr _ h => E.stable_free hr h
  -- `recorded` keeps the answer of the ownership query for the claim that follows it.
  refine .bind (Q := Given E i) (recorded_triple always (given_stable E i) (fun _ => always)
    fun held => ?_) fun r => ?_
  · refine ((calm_quiet E i).frame (ownedActiveCommand_quiet _ _) (at_stable E i held)
      (owned_given E i (F := fun _ _ => True))).conseq (fun _ _ h => h)
      (fun r w hw h => ⟨h.1, ?_⟩) fun _ _ _ _ => trivial
    refine E.owned hw.exclusive hw.inv h.2 (fun hr => ?_) fun k hk => ?_
    · rw [Option.map_eq_none_iff] at hr
      subst hr
      exact h.1
    · obtain ⟨c, rfl, rfl⟩ := Option.map_eq_some_iff.1 hk
      exact Holds.at h.1
  · cases r with
    | some c =>
      refine .done_ok (taken_stable E i (some c)) fun _ _ h d hd => ?_
      exact Option.some.inj hd ▸ h
    | none =>
      refine .bind (Q := fun _ => E.Free i) (.read free (fun _ => free) fun _ _ h => h)
        fun recovering => ?_
      split
      · exact .done_ok (taken_stable E i none) fun _ _ _ => taken_none
      · refine recorded_triple free (taken_stable E i) (fun _ => always) fun held => ?_
        refine .of_forall fun w hw h => ?_
        have hcall := fun result => E.claimed (r := result) hw.exclusive hw.inv h.2 h.1
        exact (claim_taken E i).conseq (fun _ _ h => h.1) (fun r _ _ h => ⟨h, hcall _⟩)
          fun _ _ _ h => h

end IntradayBot.Node
