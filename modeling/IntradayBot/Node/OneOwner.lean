import IntradayBot.Node.Drift
import IntradayBot.Node.Intake
import IntradayBot.Node.Loops

/-!
# One owner, one order

Along every run of the service whose steps keep the two stores disjoint
(`Disjoint`), no candidate is worked on by two slots, none that has ended comes
back, and the entry order of each is requested at most once
(`candidates_exclusive`). Without this condition, the copy of a candidate in memory
and its row are taken by different slots (`candidates_not_exclusive`).
-/

namespace IntradayBot.Node

open Coop HybridRepository

variable {X : ExchangeModel} {config : Config}

/-- No more is asked of a run than that the stores stay disjoint. -/
def disjointOnly (X : ExchangeModel) (config : Config) : Extension X config Disjoint where
  inv _ := True
  Free _ _ := True
  Call _ := True
  disjoint h := h
  change _ _ _ _ _ := trivial
  arrival _ _ _ _ _ := trivial
  stable_free _ _ := trivial
  free _ _ _ _ := trivial
  owned _ _ _ _ _ := trivial
  claimed _ _ _ _ := trivial

/-- When the service starts, its stores are exclusive. -/
theorem Starts.exclusive {w : ServiceWorld X} (h : Starts w) : Exclusive w := by
  obtain ⟨⟨localeCompare, database, databaseReady, now, hmem⟩, horders⟩ := h
  have hentry : ∀ k, stored? w k = none := fun k => by
    rw [stored?, hmem]
    rfl
  refine ⟨fun k => ⟨fun c _ hc => ?_, fun c hc => ?_, fun hs => ?_⟩, ?_⟩
  · rw [hentry] at hc
    cases hc
  · rw [hentry] at hc
    cases hc
  · simp [Sent, entryKeys, horders] at hs
  · simp [entryKeys, horders]

theorem Starts.invariant {ok : Condition Slot Memory (Remote X) JsError Op.Val}
    (E : Extension X config ok) {w : ServiceWorld X} (h : Starts w) (hinv : E.inv w) :
    (contract E).inv w := by
  obtain ⟨localeCompare, database, databaseReady, now, hmem⟩ := h.mem
  exact ⟨h.exclusive, hinv, by simp [hmem, Memory.startedIn]⟩

/-- What holds of candidates at a later point of a run. -/
structure CandidatesExclusive (w w' : ServiceWorld X) : Prop where
  /-- No candidate is worked on by two slots. -/
  one_slot : ∀ k c d i j, Copy w' k c → Busy i c → Copy w' k d → Busy j d → i = j
  /-- No candidate that was closed or failed is made active again, in memory… -/
  entries : ∀ k c, Ended w k → stored? w' k = some c → c.state.Active →
    ∃ d, stored? w k = some d ∧ d.state.Active
  /-- … or in the table. -/
  rows : ∀ k c, Ended w k → row? w' k = some c → c.state.Active →
    ∃ d, row? w k = some d ∧ d.state.Active
  /-- The entry order of a candidate is requested at most once. -/
  one_order : (entryKeys w'.remote.orders).Nodup

/-- Candidates stay exclusive along the runs that keep the stores disjoint. -/
theorem candidates_exclusive (X : ExchangeModel) (config : Config) {w : ServiceWorld X}
    (hw : Starts w) {c₁ c₂ : Coop.Config Slot Memory (Remote X) JsError Op.Val}
    (h₁ : Run (service X config) Disjoint ((service X config).start w) c₁)
    (h₂ : Run (service X config) Disjoint c₁ c₂) : CandidatesExclusive c₁.world c₂.world := by
  have hv := verified (disjointOnly X config)
  have hinv := hw.invariant (disjointOnly X config) trivial
  have hexclusive := (hv.run hinv (fun _ => trivial) (h₁.trans h₂)).exclusive
  have hforward : Forward c₁.world c₂.world :=
    hv.steps hinv (fun _ => trivial) (fun _ _ _ => Forward.trans) h₁ h₂
  exact ⟨fun k c d i j hc hi hd hj => hexclusive.stamped_unique hc hi.stamped hd hj.stamped,
    hforward.entries, hforward.rows, hexclusive.once⟩

/-- No row is in the table. -/
def noRows (w : ServiceWorld X) : Bool := w.remote.tables.commands.commands.isEmpty

/-- Without rows, the stores are disjoint. -/
theorem disjoint_of_noRows {w w' : ServiceWorld X} {l : Label Slot JsError Op.Val}
    (h : noRows w) : Disjoint w l w' := by
  have hnone : ∀ k, row? w k = none := fun k => by
    rcases hrow : row? w k with _ | c
    · rfl
    · have hkey : c.candidateKey = k := CommandMap.candidateKey_of_get? hrow
      have hmem := CommandMap.mem_commands.2
        (hkey ▸ hrow : w.remote.tables.commands.get? _ = some c)
      rw [List.isEmpty_iff.1 h] at hmem
      cases hmem
  exact ⟨fun k c _ hc => by simp [hnone] at hc, fun _ k c _ _ hc => by simp [hnone] at hc⟩

/-- The database is in use, and no row has an entry in memory. -/
def apart (w w' : ServiceWorld X) : Bool :=
  w'.mem.usable && w.remote.tables.commands.commands.all fun c =>
    (stored? w c.candidateKey).isNone && (stored? w' c.candidateKey).isNone

theorem stored_of_apart {w w' : ServiceWorld X} (h : apart w w') {k : String} {c : Command}
    (hc : row? w k = some c) : stored? w k = none ∧ stored? w' k = none := by
  have hkey : c.candidateKey = k := CommandMap.candidateKey_of_get? hc
  have hmem := CommandMap.mem_commands.2
    (hkey ▸ hc : w.remote.tables.commands.get? c.candidateKey = some c)
  have hnone := List.all_eq_true.1 (Bool.and_eq_true_iff.1 h).2 c hmem
  simpa [hkey] using hnone

/-- Where no row has an entry in memory, the stores are disjoint. -/
theorem disjoint_of_apart {w w' : ServiceWorld X} {l : Label Slot JsError Op.Val}
    (h : apart w w') : Disjoint w l w' :=
  ⟨fun _ _ _ hc _ _ _ => (stored_of_apart h hc).1,
    fun _ _ _ _ hn hc => absurd (stored_of_apart h hc).2 hn⟩

/-! ## A candidate on both channels -/

/-- An exchange that does not answer. -/
def silent : ExchangeModel := ⟨Unit, fun _ _ _ _ _ => False, fun _ _ => False⟩

/-- The next step of a slot, with a database that answers. -/
def healthyMove (slot : Slot) : Move Slot Memory (Remote silent) JsError Op.Val :=
  .run slot (answering (fun _ => .done fun _ => false) fun _ _ => none)

def defaultConfig : Config := loadConfig "node" none none none none

/-- A configuration that three candles are enough for. -/
def tradingConfig : Config := loadConfig "node" none none none (some 3)

/-- A service with a database, both empty. -/
def emptyService : ServiceWorld silent := ⟨.started true true 0, ⟨∅, false, [], ()⟩⟩

def delivered (payload : Json) : Move Slot Memory (Remote X) JsError Op.Val :=
  .env fun w => ⟨(acceptDirectCandidate payload w.mem).2, w.remote⟩

def published (candidateKey : String) (payload : Json) (now : ℕ) :
    Move Slot Memory (Remote X) JsError Op.Val :=
  .env fun w => ⟨w.mem,
    { w.remote with tables := w.remote.tables.publish candidateKey payload now }⟩

/-- Slot 1 takes the candidate in memory, and slot 2 its row. -/
def twoOwners : List (Move Slot Memory (Remote silent) JsError Op.Val) :=
  delivered approvedPayload :: published "BTCUSDT-1" approvedPayload 0 ::
    (List.replicate 12 (healthyMove slot1) ++ List.replicate 13 (healthyMove slot2))

theorem twoOwners_fair : ∀ m ∈ twoOwners, m.Fair (service silent defaultConfig) := by
  have hslot : ∀ slot, (healthyMove slot).Fair (service silent defaultConfig) := fun slot =>
    answering_fair _ fun _ _ _ _ h => by cases h
  simp only [twoOwners, List.forall_mem_cons, List.forall_mem_append]
  exact ⟨fun w => .deliver _ w, fun w => .publish _ _ _ w,
    fun m h => List.eq_of_mem_replicate h ▸ hslot slot1,
    fun m h => List.eq_of_mem_replicate h ▸ hslot slot2⟩

/-- The state and the slot of a copy. -/
def stamp (c : Command) : CommandState × Option ℕ := (c.state, c.slotId)

theorem busy_of_stamp {i : Slot} {copy : Option Command}
    (h : copy.map stamp = some (.reserved, some i.id)) : ∃ c, copy = some c ∧ Busy i c := by
  obtain ⟨c, hc, hs⟩ := Option.map_eq_some_iff.1 h
  obtain ⟨hst, hslot⟩ := Prod.mk.inj hs
  exact ⟨c, hc, hslot, hst ▸ CommandState.active_reserved⟩

theorem twoOwners_copies : (playAll (service silent defaultConfig)
    ((service silent defaultConfig).start emptyService) twoOwners).map
      (fun c => ((stored? c.world "BTCUSDT-1").map stamp, (row? c.world "BTCUSDT-1").map stamp)) =
        some (some (.reserved, some 1), some (.reserved, some 2)) := by
  decide +kernel

theorem candidates_not_exclusive : ¬∀ (X : ExchangeModel) (config : Config) (w : ServiceWorld X),
    Starts w → ∀ c₁ c₂ : Coop.Config Slot Memory (Remote X) JsError Op.Val,
    Run (service X config) (fun _ _ _ => True) ((service X config).start w) c₁ →
    Run (service X config) (fun _ _ _ => True) c₁ c₂ → CandidatesExclusive c₁.world c₂.world := by
  intro h
  obtain ⟨c, hc, hcopies⟩ := Option.map_eq_some_iff.1 twoOwners_copies
  have hexclusive := h silent defaultConfig emptyService ⟨⟨_, _, _, _, rfl⟩, rfl⟩ _ c .refl
    (Run.of_playAll twoOwners_fair hc)
  obtain ⟨hentry, hrow⟩ := Prod.mk.inj hcopies
  obtain ⟨d, hd, hbusy⟩ := busy_of_stamp (i := slot1) hentry
  obtain ⟨d', hd', hbusy'⟩ := busy_of_stamp (i := slot2) hrow
  exact absurd (hexclusive.one_slot _ d d' slot1 slot2 (.inl hd) hbusy (.inr hd') hbusy') (by decide)

/-! ## Two candidates, each on one channel -/

/-- An exchange that may answer in any way. -/
def talking : ExchangeModel := ⟨Unit, fun _ _ _ _ _ => True, fun _ _ => True⟩

/-- The answers of an exchange that takes every order. -/
def agreeable : (o : BybitOp) → Unit → Option (Except JsError o.Val × Unit)
  | .createOrder _, s => some (.ok (some (.str "1")), s)
  | o, s => (Executor.exampleAnswers "100" "100" [] (.bybit o)).map fun a => (a, s)

/-- The next step of a slot, with a database that answers and an exchange that does. -/
def agreeableMove (slot : Slot) : Move Slot Memory (Remote talking) JsError Op.Val :=
  .run slot (answering (fun _ => .done fun _ => false) agreeable)

/-- The payload of a candidate for an entry at a reference price. -/
def pricedPayload (candidateKey : String) (entryReference : ℚ) : Json :=
  (Executor.exampleCommand.payload.set "candidateKey" (.str candidateKey)).set "entryReference"
    (.num entryReference)

/-- A database whose row of a candidate is reserved for slot 1. -/
def takenRow : Tables :=
  (((∅ : Tables).publish "BTCUSDT:1" (pricedPayload "BTCUSDT:1" 100) 1000).claim (fun _ => false)
    "node:slot1" 1 1000).2

/-- The service, started over this row. -/
def takenService : ServiceWorld talking := ⟨.started true true 1000, ⟨takenRow, false, [], ()⟩⟩

/-- Slot 1 is given its row, and slot 2 claims a candidate that was delivered. -/
def claims : List (Move Slot Memory (Remote talking) JsError Op.Val) :=
  List.replicate 12 (agreeableMove slot1) ++ delivered (pricedPayload "BTCUSDT:0" 200) ::
    List.replicate 14 (agreeableMove slot2)

/-- Slot 2 fails, as the price has left its candidate, and claims a row that was published; its
    first candidate is delivered again. Slot 3 claims nothing, and slot 1 sends its order. -/
def works : List (Move Slot Memory (Remote talking) JsError Op.Val) :=
  List.replicate 22 (agreeableMove slot2) ++
    published "BTCUSDT:2" (pricedPayload "BTCUSDT:2" 100) 1000 ::
      (List.replicate 16 (agreeableMove slot2) ++ delivered (pricedPayload "BTCUSDT:0" 200) ::
        (List.replicate 16 (agreeableMove slot3) ++ List.replicate 38 (agreeableMove slot1)))

theorem agreeableMove_fair (slot : Slot) :
    (agreeableMove slot).Fair (service talking tradingConfig) :=
  answering_fair _ fun _ _ _ _ _ => trivial

theorem claims_fair : ∀ m ∈ claims, m.Fair (service talking tradingConfig) := by
  simp only [claims, List.forall_mem_cons, List.forall_mem_append]
  exact ⟨fun m h => List.eq_of_mem_replicate h ▸ agreeableMove_fair slot1,
    fun w => .deliver _ w, fun m h => List.eq_of_mem_replicate h ▸ agreeableMove_fair slot2⟩

theorem works_fair : ∀ m ∈ works, m.Fair (service talking tradingConfig) := by
  simp only [works, List.forall_mem_cons, List.forall_mem_append]
  exact ⟨fun m h => List.eq_of_mem_replicate h ▸ agreeableMove_fair slot2,
    fun w => .publish _ _ _ w, fun m h => List.eq_of_mem_replicate h ▸ agreeableMove_fair slot2,
    fun w => .deliver _ w, fun m h => List.eq_of_mem_replicate h ▸ agreeableMove_fair slot3,
    fun m h => List.eq_of_mem_replicate h ▸ agreeableMove_fair slot1⟩

/-- The copies of the candidates, and those whose order was requested. -/
structure Account where
  copies : List (String × CommandState × Option ℕ)
  ordered : List String
  deriving DecidableEq

def account (w : ServiceWorld X) : Account where
  copies := (w.mem.direct.commands ++ w.remote.tables.commands.commands).map fun c =>
    (c.candidateKey, stamp c)
  ordered := entryKeys w.remote.orders

theorem claims_works : ∃ c₁ c₂,
    Run (service talking tradingConfig) (fun w _ w' => apart w w')
      ((service talking tradingConfig).start takenService) c₁ ∧
    Run (service talking tradingConfig) (fun w _ w' => apart w w') c₁ c₂ ∧
    account c₁.world =
      ⟨[("BTCUSDT:0", .reserved, some 2), ("BTCUSDT:1", .reserved, some 1)], []⟩ ∧
    account c₂.world =
      ⟨[("BTCUSDT:0", .failed, some 2), ("BTCUSDT:1", .orderPending, some 1),
        ("BTCUSDT:2", .reserved, some 2)], ["BTCUSDT:1"]⟩ := by
  have hworks : ((playMeeting (service talking tradingConfig) (fun w _ w' => apart w w')
      ((service talking tradingConfig).start takenService) claims).bind fun c₁ =>
        (playMeeting (service talking tradingConfig) (fun w _ w' => apart w w') c₁ works).map
          fun c₂ => (account c₁.world, account c₂.world)) =
      some (⟨[("BTCUSDT:0", .reserved, some 2), ("BTCUSDT:1", .reserved, some 1)], []⟩,
        ⟨[("BTCUSDT:0", .failed, some 2), ("BTCUSDT:1", .orderPending, some 1),
          ("BTCUSDT:2", .reserved, some 2)], ["BTCUSDT:1"]⟩) := by
    decide +kernel
  obtain ⟨c₁, h₁, hworks⟩ := Option.bind_eq_some_iff.1 hworks
  obtain ⟨c₂, h₂, haccounts⟩ := Option.map_eq_some_iff.1 hworks
  obtain ⟨haccount₁, haccount₂⟩ := Prod.mk.inj haccounts
  exact ⟨c₁, c₂, .of_playMeeting claims_fair h₁, .of_playMeeting works_fair h₂, haccount₁, haccount₂⟩

/-- Two slots claim, one fails and takes another candidate, a third is refused and the first one
    sends its order: the candidates are exclusive all along. -/
theorem candidates_exclusive_worked : ∃ c₁ c₂,
    Run (service talking tradingConfig) Disjoint
      ((service talking tradingConfig).start takenService) c₁ ∧
    Run (service talking tradingConfig) Disjoint c₁ c₂ ∧
    account c₁.world =
      ⟨[("BTCUSDT:0", .reserved, some 2), ("BTCUSDT:1", .reserved, some 1)], []⟩ ∧
    account c₂.world =
      ⟨[("BTCUSDT:0", .failed, some 2), ("BTCUSDT:1", .orderPending, some 1),
        ("BTCUSDT:2", .reserved, some 2)], ["BTCUSDT:1"]⟩ ∧
    CandidatesExclusive c₁.world c₂.world := by
  obtain ⟨c₁, c₂, h₁, h₂, haccount₁, haccount₂⟩ := claims_works
  replace h₁ := h₁.mono fun w l w' h => disjoint_of_apart (l := l) h
  replace h₂ := h₂.mono fun w l w' h => disjoint_of_apart (l := l) h
  exact ⟨c₁, c₂, h₁, h₂, haccount₁, haccount₂,
    candidates_exclusive talking tradingConfig ⟨⟨_, _, _, _, rfl⟩, rfl⟩ h₁ h₂⟩

end IntradayBot.Node
