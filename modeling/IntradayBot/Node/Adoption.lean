import IntradayBot.Data.Except
import IntradayBot.Data.SortBy
import IntradayBot.Node.Repository
import Mathlib.Data.Prod.Lex
import Mathlib.Data.String.Basic
import Mathlib.Order.Interval.Finset.Nat

/-!
# Adopting the active commands

A process that becomes leader takes over the commands in a state of `ACTIVE`: in one
transaction, `adoptActiveCommands` gives each of them a slot and writes its owner. A row
keeps its slot; one without a slot gets the lowest that no row *before* it was given, in
the order of creation.

The rows are rewritten one by one, and the unique index sees each of these updates. A row
without a slot may thus be given the slot that a later row still has, which the index
refuses, and nothing is adopted. It happens unless each row of a slot `n` leaves room for
the rows before it (`Roomy`): at most `n - 1` of them have no slot, or a lower one.
-/

namespace IntradayBot.Node

/-- The row with its new slot and owner. -/
def Command.adopted (row : Command) (ownerBase : String) (slotId now : ℕ) : Command :=
  { row with
    slotId := some slotId
    ownerId := some s!"{ownerBase}:slot{slotId}"
    updatedAt := now }

/-- The slot given to a row, where the slots of `used` were given before. -/
def slotFor (used : Finset ℕ) (row : Command) : Option ℕ :=
  let slotId := row.slotId.getD 0
  if slotId ∉ [1, 2, 3] ∨ slotId ∈ used then [1, 2, 3].find? fun candidate => candidate ∉ used
  else some slotId

namespace Tables

variable {t t' : Tables} {ownerBase : String} {now : String → ℕ}

/-- `CHECK(slot_id IS NULL OR slot_id BETWEEN 1 AND 3)` -/
abbrev SlotChecked (t : Tables) : Prop :=
  ∀ k row, t.row? k = some row → ∀ n, row.slotId = some n → 1 ≤ n ∧ n ≤ 3

/-- `… WHERE state = ANY(ACTIVE) ORDER BY created_at,candidate_key` -/
def activeInOrder (t : Tables) : List Command :=
  sortBy (fun c => toLex (c.createdAt, t.collation.text c.candidateKey)) t.activeRows

/-- `UPDATE … SET slot_id=…,owner_id=…,updated_at=… WHERE candidate_key=… AND
    state = ANY(ACTIVE) RETURNING *`, which the index on the slots may refuse. -/
def updateOwner (t : Tables) (ownerBase : String) (slotId now : ℕ) (candidateKey : String) :
    Except JsError (Option Command × Tables) :=
  match t.row? candidateKey with
  | none => .ok (none, t)
  | some row =>
    if row.state.Active then
      if free : ∀ d ∈ t.activeRows, d.slotId = some slotId → d.candidateKey = row.candidateKey then
        .ok (some (row.adopted ownerBase slotId now),
          t.putRow (row.adopted ownerBase slotId now) fun _ d hd ha hs _ =>
            free d (mem_activeRows.2 ⟨hd, ha⟩) hs)
      else .error (.error "duplicate key value violates unique constraint")
    else .ok (none, t)

/-- The loop of `adoptActiveCommands`; `now` is the time at which the row of a key is
    rewritten. -/
def adoptRows (ownerBase : String) (now : String → ℕ) :
    List Command → Finset ℕ → Tables → Except JsError (List Command × Tables)
  | [], _, t => .ok ([], t)
  | row :: rows, used, t =>
    match slotFor used row with
    | none => .error (.error "Unable to assign a unique execution slot")
    | some slotId => do
      let (updated, t) ←
        t.updateOwner ownerBase slotId (now row.candidateKey) row.candidateKey
      match updated with
      | none =>
        .error (.error s!"Lost active command during ownership recovery: {row.candidateKey}")
      | some updated => do
        let (assignments, t) ← adoptRows ownerBase now rows (insert slotId used) t
        return (updated :: assignments, t)

/-- `adoptActiveCommands`: the transaction is rolled back where an error is thrown. -/
def adoptActiveCommands (t : Tables) (ownerBase : String) (now : String → ℕ) :
    Except JsError (List Command) × Tables :=
  if 3 < t.activeInOrder.length then
    (.error (.error "More than three active execution commands exist; ownership recovery blocked"),
      t)
  else match adoptRows ownerBase now t.activeInOrder ∅ t with
    | .error e => (.error e, t)
    | .ok (assignments, t') => (.ok assignments, t')

theorem mem_activeInOrder {c : Command} : c ∈ t.activeInOrder ↔ c ∈ t.activeRows := mem_sortBy

theorem length_activeInOrder (t : Tables) : t.activeInOrder.length = t.activeRows.length :=
  (sortBy_perm ..).length_eq

theorem nodup_activeInOrder (t : Tables) :
    (t.activeInOrder.map Command.candidateKey).Nodup := by
  have hperm := (sortBy_perm (fun c : Command => toLex (c.createdAt, t.collation.text c.candidateKey))
    t.activeRows).map Command.candidateKey
  refine hperm.nodup_iff.2 (t.commands.nodup_keys.sublist ?_)
  exact List.filter_sublist.map _

/-- Active rows of one slot are one row. -/
theorem slot_unique {c d : Command} (hc : c ∈ t.activeRows) (hd : d ∈ t.activeRows) {n : ℕ}
    (hn : c.slotId = some n) (hs : d.slotId = some n) : d.candidateKey = c.candidateKey := by
  rw [mem_activeRows] at hc hd
  exact t.activeSlots _ _ d c hd.1 hc.1 hd.2 hc.2 (hs.trans hn.symm) (by simp [hs])

/-- No other active row has the slot. -/
abbrev FreeFor (t : Tables) (row : Command) (slotId : ℕ) : Prop :=
  ∀ d ∈ t.activeRows, d.slotId = some slotId → d.candidateKey = row.candidateKey

theorem updateOwner_of_free (ownerBase : String) (time : ℕ) {row : Command}
    (hrow : row ∈ t.activeRows) {slotId : ℕ} (free : t.FreeFor row slotId) :
    ∃ t', t.updateOwner ownerBase slotId time row.candidateKey =
        .ok (some (row.adopted ownerBase slotId time), t') ∧
      ∀ k, t'.row? k =
        if k = row.candidateKey then some (row.adopted ownerBase slotId time) else t.row? k := by
  obtain ⟨hget, active⟩ := mem_activeRows.1 hrow
  rw [updateOwner]
  simp only [hget, active, ↓reduceIte]
  rw [dif_pos free]
  exact ⟨_, rfl, fun k => row?_putRow ..⟩

theorem free_of_updateOwner {row : Command} (hrow : row ∈ t.activeRows) {slotId time : ℕ}
    {r : Option Command × Tables}
    (h : t.updateOwner ownerBase slotId time row.candidateKey = .ok r) :
    t.FreeFor row slotId := by
  obtain ⟨hget, active⟩ := mem_activeRows.1 hrow
  rw [updateOwner] at h
  simp only [hget, active, ↓reduceIte] at h
  split at h
  · assumption
  · simp at h

/-! ## The slots that are given -/

/-- A row that may keep its slot keeps it; one without a slot gets the lowest that was not
    given before. -/
theorem slotFor_spec {used : Finset ℕ} {row : Command} {n : ℕ} (h : slotFor used row = some n) :
    1 ≤ n ∧ n ≤ 3 ∧ n ∉ used ∧
      (∀ m, row.slotId = some m → 1 ≤ m → m ≤ 3 → m ∉ used → n = m) ∧
      (row.slotId = none → ∀ m, 1 ≤ m → m < n → m ∈ used) := by
  rw [slotFor] at h
  split at h
  · rename_i hbad
    -- the lowest that is free: those below it were looked at, and are not
    have hmem := List.mem_of_find?_eq_some h
    have hfree : n ∉ used := by simpa using List.find?_some h
    refine ⟨?_, ?_, hfree, ?_, ?_⟩
    · simp at hmem
      omega
    · simp at hmem
      omega
    · intro m hm h1 h3 hused
      rw [hm, Option.getD_some] at hbad
      have : m ∈ [1, 2, 3] := by
        simp
        omega
      tauto
    · intro _ m h1 hlt
      simp only [List.find?] at h
      simp only [List.mem_cons, List.not_mem_nil, or_false] at hmem
      by_contra hm
      obtain rfl | rfl : m = 1 ∨ m = 2 := by omega
      · simp [hm] at h
        omega
      · by_cases hone : 1 ∈ used <;> simp [hm, hone] at h <;> omega
  · rename_i hgood
    obtain rfl := Option.some.inj h
    simp only [not_or, not_not] at hgood
    obtain ⟨hmem, hfree⟩ := hgood
    simp only [List.mem_cons, List.not_mem_nil, or_false] at hmem
    refine ⟨by omega, by omega, hfree, fun m hm _ _ _ => by simp [hm], fun hnone => ?_⟩
    simp [hnone] at hmem

theorem exists_slotFor {used : Finset ℕ} (row : Command) (h : used.card < 3) :
    ∃ n, slotFor used row = some n := by
  rw [slotFor]
  split
  · rw [← Option.isSome_iff_exists, List.find?_isSome]
    -- three slots are not among fewer than three
    by_contra hall
    have hsub : ({1, 2, 3} : Finset ℕ) ⊆ used := by
      intro m hm
      by_contra hused
      exact hall ⟨m, by simpa using hm, by simpa using hused⟩
    have := Finset.card_le_card hsub
    simp at this
    omega
  · exact ⟨_, rfl⟩

/-! ## Room for the rows before -/

/-- The row takes a slot before `n`: it has a lower one, or none. -/
abbrev Ahead (n : ℕ) (row : Command) : Prop := ∀ m ∈ row.slotId, m < n

/-- Each row with a slot leaves room for the slots of `used` and for the rows before it. -/
def RoomyAfter (used : Finset ℕ) (rows : List Command) : Prop :=
  ∀ before row after n, rows = before ++ row :: after → row.slotId = some n →
    (used.filter (· < n)).card + before.countP (Ahead n) < n

/-- A row of a slot has at most that many rows ahead of it, in order, less one. -/
abbrev Roomy (rows : List Command) : Prop :=
  ∀ before row after n, rows = before ++ row :: after → row.slotId = some n →
    before.countP (Ahead n) < n

theorem roomyAfter_empty {rows : List Command} : RoomyAfter ∅ rows ↔ Roomy rows := by
  simp [RoomyAfter, Roomy]

theorem roomyAfter_cons {used : Finset ℕ} {row : Command} {rows : List Command} :
    RoomyAfter used (row :: rows) ↔
      (∀ n, row.slotId = some n → (used.filter (· < n)).card < n) ∧
        ∀ before row' after n, rows = before ++ row' :: after → row'.slotId = some n →
          (used.filter (· < n)).card + (before.countP (Ahead n) + if Ahead n row then 1 else 0) <
            n := by
  constructor
  · intro h
    refine ⟨fun n hn => by simpa using h [] row rows n rfl hn, ?_⟩
    intro before row' after n hrows hn
    have := h (row :: before) row' after n (by rw [hrows]; rfl) hn
    simpa [List.countP_cons] using this
  · rintro ⟨hhead, htail⟩ before row' after n hrows hn
    rcases before with _ | ⟨c, before⟩
    · obtain ⟨rfl, rfl⟩ := List.cons.inj hrows
      simpa using hhead n hn
    · obtain ⟨rfl, htl⟩ := List.cons.inj hrows
      simpa [List.countP_cons] using htail before row' after n htl hn

theorem card_lower_lt {used : Finset ℕ} (hused : ∀ m ∈ used, 1 ≤ m) {n : ℕ} (hn : 1 ≤ n) :
    (used.filter (· < n)).card < n := by
  have hsub : used.filter (· < n) ⊆ Finset.Ico 1 n := by
    intro m hm
    rw [Finset.mem_filter] at hm
    exact Finset.mem_Ico.2 ⟨hused m hm.1, hm.2⟩
  have := Finset.card_le_card hsub
  rw [Nat.card_Ico] at this
  omega

theorem le_card_lower {used : Finset ℕ} {n : ℕ} (h : ∀ m, 1 ≤ m → m < n → m ∈ used) :
    n ≤ (used.filter (· < n)).card + 1 := by
  have hsub : Finset.Ico 1 n ⊆ used.filter (· < n) := by
    intro m hm
    rw [Finset.mem_Ico] at hm
    exact Finset.mem_filter.2 ⟨h m hm.1 hm.2, hm.2⟩
  have := Finset.card_le_card hsub
  rw [Nat.card_Ico] at this
  omega

/-! ## The loop -/

/-- Between two rows of the loop: `rows` are still to be rewritten, and the slots of `used`
    belong to those that were. -/
structure Partway (t : Tables) (used : Finset ℕ) (rows : List Command) : Prop where
  current : ∀ row ∈ rows, row ∈ t.activeRows
  rewritten : ∀ d ∈ t.activeRows, d ∈ rows ∨ ∃ n ∈ used, d.slotId = some n
  slots : ∀ row ∈ rows, ∀ n, row.slotId = some n → 1 ≤ n ∧ n ≤ 3 ∧ n ∉ used
  keys : (rows.map Command.candidateKey).Nodup
  positive : ∀ n ∈ used, 1 ≤ n
  few : used.card + rows.length ≤ 3

variable {used : Finset ℕ} {row : Command} {rows : List Command} {n : ℕ}

theorem Partway.start (t : Tables) (hslots : t.SlotChecked) (h : t.activeInOrder.length ≤ 3) :
    Partway t ∅ t.activeInOrder where
  current _ hrow := mem_activeInOrder.1 hrow
  rewritten _ hd := .inl (mem_activeInOrder.2 hd)
  slots row hrow n hn := by
    obtain ⟨h1, h3⟩ := hslots _ row (mem_activeRows.1 (mem_activeInOrder.1 hrow)).1 n hn
    exact ⟨h1, h3, by simp⟩
  keys := t.nodup_activeInOrder
  positive := by simp
  few := by simpa using h

/-- The row before the loop is not one of those after it. -/
theorem Partway.ne_key (inv : Partway t used (row :: rows)) {d : Command} (hd : d ∈ rows) :
    d.candidateKey ≠ row.candidateKey := by
  have := (List.nodup_cons.1 inv.keys).1
  rintro hkey
  exact this (List.mem_map.2 ⟨d, hd, hkey⟩)

/-- The slot is free for the row just if no later row has it. -/
theorem Partway.free_iff (inv : Partway t used (row :: rows)) (hn : n ∉ used) :
    t.FreeFor row n ↔ ∀ d ∈ rows, d.slotId ≠ some n := by
  constructor
  · intro free d hd hs
    exact inv.ne_key hd (free d (inv.current d (List.mem_cons_of_mem _ hd)) hs)
  · intro h d hd hs
    rcases inv.rewritten d hd with hmem | ⟨m, hm, hdm⟩
    · rcases List.mem_cons.1 hmem with rfl | hmem
      · rfl
      · exact absurd hs (h d hmem)
    · obtain rfl : m = n := by simpa [hs] using hdm.symm
      exact absurd hm hn

/-- The rows after the row is rewritten. -/
theorem Partway.next (inv : Partway t used (row :: rows)) (hn : slotFor used row = some n)
    (hlater : ∀ d ∈ rows, d.slotId ≠ some n) {time : ℕ}
    (ht' : ∀ k, t'.row? k =
      if k = row.candidateKey then some (row.adopted ownerBase n time) else t.row? k) :
    Partway t' (insert n used) rows := by
  obtain ⟨h1, _, hfree, _, _⟩ := slotFor_spec hn
  have hactive : row.state.Active := (mem_activeRows.1 (inv.current row (by simp))).2
  -- the active rows are the rewritten one, and the others
  have hmem : ∀ d, d ∈ t'.activeRows ↔
      d = row.adopted ownerBase n time ∨ d.candidateKey ≠ row.candidateKey ∧ d ∈ t.activeRows := by
    intro d
    rw [mem_activeRows, mem_activeRows, ht']
    split
    · rename_i hkey
      constructor
      · rintro ⟨hd, _⟩
        exact .inl (Option.some.inj hd).symm
      · rintro (rfl | ⟨hne, _⟩)
        · exact ⟨rfl, hactive⟩
        · exact absurd hkey hne
    · rename_i hkey
      constructor
      · exact fun h => .inr ⟨hkey, h⟩
      · rintro (rfl | ⟨_, h⟩)
        · exact absurd rfl hkey
        · exact h
  refine ⟨?_, ?_, ?_, (List.nodup_cons.1 inv.keys).2, ?_, ?_⟩
  · intro d hd
    exact (hmem d).2 (.inr ⟨inv.ne_key hd, inv.current d (List.mem_cons_of_mem _ hd)⟩)
  · intro d hd
    rcases (hmem d).1 hd with rfl | ⟨hne, hd⟩
    · exact .inr ⟨n, by simp, rfl⟩
    · rcases inv.rewritten d hd with hmem | ⟨m, hm, hdm⟩
      · rcases List.mem_cons.1 hmem with rfl | hmem
        · exact absurd rfl hne
        · exact .inl hmem
      · exact .inr ⟨m, by simp [hm], hdm⟩
  · intro d hd m hm
    obtain ⟨hm1, hm3, hused⟩ := inv.slots d (List.mem_cons_of_mem _ hd) m hm
    refine ⟨hm1, hm3, ?_⟩
    rw [Finset.mem_insert, not_or]
    exact ⟨fun h => hlater d hd (h ▸ hm), hused⟩
  · simpa [h1] using inv.positive
  · have := inv.few
    rw [List.length_cons] at this
    rw [Finset.card_insert_of_notMem hfree]
    omega

/-- A row rewritten leaves room just if its slot is not that of a later one. -/
theorem Partway.roomy_cons (inv : Partway t used (row :: rows)) (hn : slotFor used row = some n) :
    RoomyAfter used (row :: rows) ↔
      (∀ d ∈ rows, d.slotId ≠ some n) ∧ RoomyAfter (insert n used) rows := by
  obtain ⟨h1, _, hfree, hkeep, hlowest⟩ := slotFor_spec hn
  -- a later slot comes after that of the row just if the row is ahead of it
  have hahead : ∀ d ∈ rows, ∀ m, d.slotId = some m → m ≠ n → (Ahead m row ↔ n < m) := by
    intro d hd m hm hne
    obtain ⟨hm1, _, hused⟩ := inv.slots d (List.mem_cons_of_mem _ hd) m hm
    rcases hrow : row.slotId with _ | s
    · have : ¬m < n := fun hlt => hused (hlowest hrow m hm1 hlt)
      simp [Ahead, hrow]
      omega
    · obtain ⟨hs1, hs3, hs⟩ := inv.slots row (by simp) s hrow
      obtain rfl := hkeep s hrow hs1 hs3 hs
      simp [Ahead, hrow]
  have hcard : ∀ m, ((insert n used).filter (· < m)).card =
      (used.filter (· < m)).card + if n < m then 1 else 0 := by
    intro m
    rw [Finset.filter_insert]
    split
    · rw [Finset.card_insert_of_notMem (by simp [hfree])]
    · rfl
  rw [roomyAfter_cons]
  constructor
  · rintro ⟨_, htail⟩
    have hlater : ∀ d ∈ rows, d.slotId ≠ some n := by
      intro d hd hs
      rcases hrow : row.slotId with _ | s
      · -- the slots below `n` were given before, and the row takes one more
        obtain ⟨before, after, hsplit⟩ := List.append_of_mem hd
        have hroom := htail before d after n hsplit hs
        have : n ≤ (used.filter (· < n)).card + 1 := le_card_lower (hlowest hrow)
        simp only [Ahead, hrow, Option.mem_def, reduceCtorEq, false_implies, implies_true,
          ↓reduceIte] at hroom
        omega
      · obtain ⟨hs1, hs3, hsu⟩ := inv.slots row (by simp) s hrow
        obtain rfl := hkeep s hrow hs1 hs3 hsu
        exact inv.ne_key hd (slot_unique (inv.current row (by simp))
          (inv.current d (List.mem_cons_of_mem _ hd)) hrow hs)
    refine ⟨hlater, fun before d after m hsplit hm => ?_⟩
    have hd : d ∈ rows := by simp [hsplit]
    have hroom := htail before d after m hsplit hm
    have hne : m ≠ n := fun h => hlater d hd (h ▸ hm)
    rw [hcard, ← if_congr (hahead d hd m hm hne) rfl rfl]
    omega
  · rintro ⟨hlater, htail⟩
    refine ⟨fun m hm => ?_, fun before d after m hsplit hm => ?_⟩
    · exact card_lower_lt inv.positive (inv.slots row (by simp) m hm).1
    · have hd : d ∈ rows := by simp [hsplit]
      have hroom := htail before d after m hsplit hm
      have hne : m ≠ n := fun h => hlater d hd (h ▸ hm)
      rw [hcard, ← if_congr (hahead d hd m hm hne) rfl rfl] at hroom
      omega

/-- A row of the tables as the adoption leaves it. -/
abbrev AdoptedAs (t' : Tables) (ownerBase : String) (now : String → ℕ) (row : Command) : Prop :=
  ∃ n, 1 ≤ n ∧ n ≤ 3 ∧ (∀ m, row.slotId = some m → n = m) ∧
    t'.row? row.candidateKey = some (row.adopted ownerBase n (now row.candidateKey))

variable (ownerBase now) in
/-- The loop rewrites the rows, all of them or, where they leave no room, none. -/
theorem adoptRows_spec (inv : Partway t used rows) :
    (RoomyAfter used rows → ∃ assignments t',
        adoptRows ownerBase now rows used t = .ok (assignments, t') ∧
        (∀ row ∈ rows, AdoptedAs t' ownerBase now row) ∧
        ∀ k, k ∉ rows.map Command.candidateKey → t'.row? k = t.row? k) ∧
      (¬RoomyAfter used rows → ∃ e, adoptRows ownerBase now rows used t = .error e) := by
  induction rows generalizing used t with
  | nil =>
    refine ⟨fun _ => ⟨[], t, rfl, by simp, by simp⟩, fun h => absurd ?_ h⟩
    intro before row after n hnil
    simp at hnil
  | cons row rows ih =>
    have hfew : used.card < 3 := by
      have := inv.few
      rw [List.length_cons] at this
      omega
    obtain ⟨n, hn⟩ := exists_slotFor row hfew
    obtain ⟨h1, h3, hfree, hkeep, _⟩ := slotFor_spec hn
    have hcurrent := inv.current row (by simp)
    rw [inv.roomy_cons hn, ← inv.free_iff hfree]
    simp only [adoptRows, hn]
    -- The update of the owner succeeds exactly when no other row of the table has the slot.
    by_cases free : t.FreeFor row n
    · obtain ⟨t₁, hupdate, ht₁⟩ := updateOwner_of_free ownerBase (now row.candidateKey)
        hcurrent free
      have inv' := inv.next hn ((inv.free_iff hfree).1 free) ht₁
      obtain ⟨hroomy, htight⟩ := ih inv'
      rw [hupdate]
      constructor
      · rintro ⟨_, hroom⟩
        obtain ⟨assignments, t', hrest, hrows, hothers⟩ := hroomy hroom
        refine ⟨row.adopted ownerBase n (now row.candidateKey) :: assignments, t', ?_, ?_, ?_⟩
        · simp [bind, Except.bind, hrest, pure, Except.pure]
        · intro d hd
          rcases List.mem_cons.1 hd with rfl | hd
          · refine ⟨n, h1, h3, fun m hm => ?_, ?_⟩
            · obtain ⟨hm1, hm3, hused⟩ := inv.slots d (by simp) m hm
              exact hkeep m hm hm1 hm3 hused
            · rw [hothers _ (List.nodup_cons.1 inv.keys).1, ht₁, if_pos rfl]
          · exact hrows d hd
        · intro k hk
          rw [List.map_cons, List.mem_cons, not_or] at hk
          rw [hothers k hk.2, ht₁, if_neg hk.1]
      · intro hno
        obtain ⟨e, hrest⟩ := htight fun hroom => hno ⟨free, hroom⟩
        exact ⟨e, by simp [bind, Except.bind, hrest]⟩
    · refine ⟨fun h => absurd h.1 free, fun _ => ?_⟩
      rcases hupdate : t.updateOwner ownerBase n (now row.candidateKey) row.candidateKey with e | r
      · exact ⟨e, by simp [bind, Except.bind]⟩
      · exact absurd (free_of_updateOwner hcurrent hupdate) free

/-- The tables `t'` are `t` with its active rows adopted: each is owned under a slot of its
    own, which is the one it had, if any, and nothing else changes. -/
structure Adopted (t t' : Tables) (ownerBase : String) (now : String → ℕ) : Prop where
  active : ∀ row ∈ t.activeRows, AdoptedAs t' ownerBase now row
  others : ∀ k, (∀ row ∈ t.activeRows, row.candidateKey ≠ k) → t'.row? k = t.row? k
  distinct : ∀ c ∈ t'.activeRows, ∀ d ∈ t'.activeRows, c.slotId = d.slotId → c = d

/-- The adoption is complete, or is refused for the number of rows. -/
def AdoptsAll (t : Tables) (ownerBase : String) (now : String → ℕ) : Prop :=
  if 3 < t.activeRows.length then
    ∃ e, t.adoptActiveCommands ownerBase now = (.error e, t)
  else
    ∃ assignments t', t.adoptActiveCommands ownerBase now = (.ok assignments, t') ∧
      Adopted t t' ownerBase now

/-- The index keeps the slots apart, once each active row has one. -/
theorem Adopted.of_rows (hactive : ∀ row ∈ t.activeRows, AdoptedAs t' ownerBase now row)
    (hothers : ∀ k, (∀ row ∈ t.activeRows, row.candidateKey ≠ k) → t'.row? k = t.row? k) :
    Adopted t t' ownerBase now := by
  refine ⟨hactive, hothers, ?_⟩
  have hslot : ∀ c ∈ t'.activeRows, c.slotId ≠ none := by
    intro c hc
    obtain ⟨hget, hca⟩ := mem_activeRows.1 hc
    by_cases hold : ∃ row ∈ t.activeRows, row.candidateKey = c.candidateKey
    · obtain ⟨row, hrow, hkey⟩ := hold
      obtain ⟨n, _, _, _, hn⟩ := hactive row hrow
      rw [hkey, hget] at hn
      rw [congrArg Command.slotId (Option.some.inj hn)]
      exact Option.some_ne_none n
    · push Not at hold
      rw [hothers _ hold] at hget
      exact absurd rfl (hold c (mem_activeRows.2 ⟨hget, hca⟩))
  intro c hc d hd hs
  obtain ⟨hcget, hca⟩ := mem_activeRows.1 hc
  obtain ⟨hdget, hda⟩ := mem_activeRows.1 hd
  have hkey := t'.activeSlots _ _ c d hcget hdget hca hda hs (hslot c hc)
  rw [hkey, hdget] at hcget
  exact (Option.some.inj hcget).symm

/-- Adopting is complete just if the rows in the way are too many, or each of them leaves
    room for those before it. -/
theorem adoption_complete_iff (t : Tables) (hslots : t.SlotChecked) (ownerBase : String)
    (now : String → ℕ) :
    t.AdoptsAll ownerBase now ↔ 3 < t.activeRows.length ∨ Roomy t.activeInOrder := by
  rw [AdoptsAll, adoptActiveCommands, length_activeInOrder]
  by_cases hmany : 3 < t.activeRows.length
  · simp [hmany]
  · have hfew : t.activeInOrder.length ≤ 3 := by
      rw [length_activeInOrder]
      omega
    -- With at most three rows the loop runs, and its specification decides both directions.
    obtain ⟨hroomy, htight⟩ := adoptRows_spec ownerBase now
      (Partway.start t hslots hfew)
    rw [if_neg hmany, if_neg hmany, ← roomyAfter_empty]
    constructor
    · rintro ⟨assignments, t', h, _⟩
      by_contra hno
      obtain ⟨e, he⟩ := htight fun hroom => hno (.inr hroom)
      rw [he] at h
      simp only [Prod.mk.injEq, reduceCtorEq, false_and] at h
    · intro h
      obtain ⟨assignments, t', hloop, hrows, hothers⟩ := hroomy (h.resolve_left hmany)
      refine ⟨assignments, t', by rw [hloop], Adopted.of_rows ?_ ?_⟩
      · exact fun row hrow => hrows row (mem_activeInOrder.2 hrow)
      · intro k hk
        refine hothers k fun hmem => ?_
        obtain ⟨row, hrow, hkey⟩ := List.mem_map.1 hmem
        exact hk row (mem_activeInOrder.1 hrow) hkey

/-- A row being managed. -/
def exampleRow (candidateKey : String) (slotId : Option ℕ) (createdAt : ℕ) : Command where
  candidateKey := candidateKey
  slotId := slotId
  state := .managing
  payload := .null
  ownerId := some "old"
  createdAt := createdAt
  updatedAt := createdAt
  source := .postgresql

theorem row?_empty (k : String) : (∅ : Tables).row? k = none := rfl

/-- Two rows, the earlier one without a slot. -/
def exampleTables (slotId : ℕ) : Tables :=
  ((∅ : Tables).putRow (exampleRow "early" none 1) fun _ d hd => by simp [row?_empty] at hd).putRow
    (exampleRow "late" (some slotId) 2) fun _ d hd _ hs _ => by
      rw [row?_putRow, row?_empty] at hd
      split at hd
      · rw [← Option.some.inj hd] at hs
        simp [exampleRow] at hs
      · simp at hd

theorem slotChecked_exampleTables {slotId : ℕ} (h : 1 ≤ slotId ∧ slotId ≤ 3) :
    (exampleTables slotId).SlotChecked := by
  intro k row hrow n hn
  rw [exampleTables, row?_putRow, row?_putRow, row?_empty] at hrow
  split at hrow
  · rw [← Option.some.inj hrow] at hn
    obtain rfl : slotId = n := by simpa [exampleRow] using hn
    exact h
  · split at hrow
    · rw [← Option.some.inj hrow] at hn
      simp [exampleRow] at hn
    · simp at hrow

theorem adoption_complete_roomy : (exampleTables 2).AdoptsAll "leader" fun _ => 3 := by
  refine (adoption_complete_iff _ (slotChecked_exampleTables (by decide)) _ _).2 (.inr ?_)
  have hrows : (exampleTables 2).activeInOrder =
    [exampleRow "early" none 1, exampleRow "late" (some 2) 2] := by rfl
  rw [hrows]
  intro before row after n hsplit hn
  rcases before with _ | ⟨c, _ | ⟨d, before⟩⟩
  · obtain ⟨rfl, -⟩ := List.cons.inj hsplit
    simp [exampleRow] at hn
  · obtain ⟨rfl, htail⟩ := List.cons.inj hsplit
    obtain ⟨rfl, -⟩ := List.cons.inj htail
    obtain rfl : 2 = n := by simpa [exampleRow] using hn
    decide
  · simp at hsplit

/-- The first row is given the slot of the second one, which the index refuses. -/
theorem adoption_not_complete :
    ¬∀ (t : Tables) (_ : t.SlotChecked) (ownerBase : String) (now : String → ℕ),
      t.AdoptsAll ownerBase now := by
  intro h
  obtain ⟨assignments, t', hadopt, -⟩ :
      ∃ assignments t', (exampleTables 1).adoptActiveCommands "leader" (fun _ => 3) =
        (.ok assignments, t') ∧ Adopted (exampleTables 1) t' "leader" fun _ => 3 :=
    h _ (slotChecked_exampleTables (by decide)) _ _
  have hrefused : ((exampleTables 1).adoptActiveCommands "leader" fun _ => 3).1.isOk = false := by
    decide +kernel
  simp [hadopt, Except.isOk, Except.toBool] at hrefused

end Tables
end IntradayBot.Node
