import IntradayBot.Node.Stops

/-!
# Stops tighten

Along a run in which every cycle starts from a record that is up to date, the stops of a
trade only tighten (`stops_tighten`). A cycle that is cut after the stop has trailed starts
again from a record that does not know of it: it moves the stop back to the entry
(`stops_loosen`).
-/

namespace IntradayBot.Node

open Coop TradeManager

/-- Every cycle starts from a record that tells of the last stop requested. -/
def StartsUpToDate (key : String) : Condition Unit Memory TradeRemote JsError Op.Val
  | w, .loop _, _ | w, .cut _, _ => UpToDate ((seen key w).look TradeExchange.stops)
  | _, _, _ => True

/-- No stop is looser than one requested before it; the last one comes first. -/
def StopsTighten (side : Side) (w : TradeWorld) : Prop :=
  w.remote.exchange.stops.Pairwise (StopRequest.Tighter side)

/-- Stops only tighten along the runs whose cycles start up to date. -/
theorem stops_tighten (command : Command) {w : TradeWorld} (hw : TradeStarts command w)
    {c : Coop.Config Unit Memory TradeRemote JsError Op.Val}
    (hr : Run (trade command) (StartsUpToDate command.candidateKey) ((trade command).start w) c) :
    StopsTighten command.tradeSide c.world := by
  have hnone : (seen command.candidateKey w).record = none := hw.record
  have hnil : (seen command.candidateKey w).exchange.stops = [] := hw.stops
  have nothing : ∀ {P : StopRequest → Prop}, ∀ r ∈ (seen command.candidateKey w).exchange.stops,
      P r := hnil ▸ fun _ hr => absurd hr List.not_mem_nil
  have hstart : Tightened command.tradeSide (seen command.candidateKey w) :=
    ⟨fun _ => hnil, fun plan hp => absurd (hnone ▸ hp) nofun, nothing, fun _ _ => nothing,
      hnil ▸ .nil, hnil ▸ .nil, fun state hs => absurd (hnone ▸ hs) nofun,
      fun state _ hs => absurd (hnone ▸ hs) nofun⟩
  have hpre : UpToDate ((seen command.candidateKey w).look TradeExchange.stops) :=
    ⟨fun r l hl => absurd (hnil.symm.trans hl) nofun, fun _ state hs => absurd (hnone ▸ hs) nofun⟩
  have hturn : Does command.candidateKey (Tightened command.tradeSide) TradeExchange.stops
      (StartsUpToDate command.candidateKey) UpToDate (managedTurn command) fun _ _ => True := by
    refine .bind (.leaves (.request trivial)) fun partially => ?_
    refine .bind (Q := fun _ _ => True) ?_ fun _ => .ret fun _ _ _ => trivial
    let state : CommandState := if partially then .partiallyFilled else .managing
    have hside : Command.tradeSide { command with state } = command.tradeSide := rfl
    exact cycle_stops hside
  exact (trade_run hturn (fun w _ hok => hok.elim id id) hr (fun _ => hw.row) hstart hpre).tightens

/-! ## A cycle that is cut -/

/-- The trade at its second level. -/
def risenMarket : Market := longMarket "10" "121" "0.01"

theorem risenMarket_fair : risenMarket.move.Fair (trade longTrade) :=
  risenMarket.move_fair (longMarket_stepped _ _ (q := 1 / 100) (by decide +kernel) (by norm_num))

/-- A cycle up to the trailing stop. -/
def trailed : List (Move Unit Memory TradeRemote JsError Op.Val) :=
  List.replicate 40 risenMarket.move

/-- The cycle is cut there, and the next one gets to its first stop. -/
def trailedAndCut : List (Move Unit Memory TradeRemote JsError Op.Val) :=
  trailed ++ .cut () :: List.replicate 20 risenMarket.move

theorem trailed_fair : ∀ m ∈ trailed, m.Fair (trade longTrade) :=
  fun _ hm => List.eq_of_mem_replicate hm ▸ risenMarket_fair

theorem trailedAndCut_fair : ∀ m ∈ trailedAndCut, m.Fair (trade longTrade) := by
  simp only [trailedAndCut, List.forall_mem_append, List.forall_mem_cons]
  exact ⟨trailed_fair, trivial, fun m hm => List.eq_of_mem_replicate hm ▸ risenMarket_fair⟩

theorem trailedAndCut_stops : (playAll (trade longTrade) ((trade longTrade).start untouched)
    trailedAndCut).map (fun c => c.world.remote.exchange.stops.map StopRequest.stopLoss) =
      some [some 100, some 116, some 100] := by
  decide +kernel

theorem trailed_stops : (playStretch (trade longTrade) ((trade longTrade).start untouched)
    trailed).map (fun c => c.world.remote.exchange.stops.map StopRequest.stopLoss) =
      some [some 116, some 100] := by
  decide +kernel

theorem stops_loosen : ¬∀ (command : Command) (w : TradeWorld), TradeStarts command w →
    ∀ c, Run (trade command) (fun _ _ _ => True) ((trade command).start w) c →
      StopsTighten command.tradeSide c.world := by
  intro h
  obtain ⟨c, hc, hstops⟩ := Option.map_eq_some_iff.1 trailedAndCut_stops
  have htight := h longTrade untouched untouched_starts c (Run.of_playAll trailedAndCut_fair hc)
  rw [StopsTighten] at htight
  rcases hs : c.world.remote.exchange.stops with _ | ⟨r, _ | ⟨q, l⟩⟩ <;> rw [hs] at hstops
  · exact absurd hstops (by simp)
  · exact absurd hstops (by simp)
  obtain ⟨hr, hstops⟩ := List.cons.inj hstops
  obtain ⟨hq, -⟩ := List.cons.inj hstops
  rw [hs] at htight
  obtain ⟨p, v, hp, hv, hle⟩ := (List.pairwise_cons.1 htight).1 q List.mem_cons_self
  obtain rfl := Option.some.inj (hr.symm.trans hp)
  obtain rfl := Option.some.inj (hq.symm.trans hv)
  revert hle
  decide +kernel

/-- The stop goes to the entry, and then trails. -/
theorem stops_tighten_trailed : ∃ c : Coop.Config Unit Memory TradeRemote JsError Op.Val,
    c.world.remote.exchange.stops.map StopRequest.stopLoss = [some 116, some 100] ∧
      StopsTighten longTrade.tradeSide c.world := by
  obtain ⟨c, hc, hstops⟩ := Option.map_eq_some_iff.1 trailed_stops
  exact ⟨c, hstops, stops_tighten longTrade untouched_starts
    (Run.of_playStretch (fun _ _ _ => trivial) (fun _ _ _ _ _ => trivial) trailed_fair hc)⟩

end IntradayBot.Node
