import IntradayBot.Coop.Trace
import IntradayBot.Data.NumberText
import IntradayBot.Node.Policy
import IntradayBot.Node.SizedBounds

/-!
# The parts of a sized position

The sizer only asks that the whole quantity of a plan is at least the minimum of the
instrument, but the manager closes it in parts. Both parts can be closed (`Closable`), and the
stop is moved to the entry once the first level is reached (`BreaksEven`), just when 30% of
the quantity, rounded down to a multiple of the step, is the minimum, or the position is small
enough to be closed at once (`Divisible`).
-/

namespace IntradayBot.Node

open Coop

namespace TradeManager

/-- The text of the step of an instrument. -/
def stepText (instrument : InstrumentRow) : String :=
  Json.toText (Json.orElse instrument.qtyStep (some (.str "0")))

/-- A quantity that the manager computes for a part is one that the exchange takes. -/
def Closes (instrument : InstrumentRow) (action : Action) (closePct minQty initialQty available
    quantity : ℚ) : Prop :=
  closeQuantity initialQty available instrument action closePct = .ok quantity ∧
    minQty ≤ quantity ∧ quantity ≤ available

/-- A position filled with a quantity can be closed part by part: the first level closes a
    part of it, and the second one a part of what that leaves, if it leaves anything. -/
def Closable (instrument : InstrumentRow) (qty : ℚ) : Prop :=
  ∃ minQty, Json.numberOrZero instrument.minOrderQty = some minQty ∧
    ∃ first, Closes instrument .tp1 tp1ClosePct minQty qty qty first ∧
      (0 < qty - first →
        ∃ second, Closes instrument .tp2 tp2ClosePct minQty qty (qty - first) second)

/-- A share of the quantity, rounded down, or all that is available where that is the
    minimum. -/
def Takes (minQty available share : ℚ) : Prop :=
  minQty ≤ share ∧ share ≤ available ∨
    share < minQty ∧ minQty ≤ available ∧ available ≤ minQty + 1 / 10 ^ 12

/-! ## Multiples of the step -/

/-- The units of the step that the manager counts in: none if it reads no step. -/
def countedUnits (instrument : InstrumentRow) : ℤ :=
  ((Json.parseNumber (stepText instrument)).map fun q =>
    roundHalfUp (q * 10 ^ decimals (stepText instrument))).getD 0

/-- The step that the manager counts in. -/
def countedStep (instrument : InstrumentRow) : ℚ :=
  countedUnits instrument / 10 ^ decimals (stepText instrument)

/-- By how much the manager may round up: a billionth of a unit. -/
def slack (instrument : InstrumentRow) : ℚ := 1 / 10 ^ 9 / 10 ^ decimals (stepText instrument)

/-- A multiple of the step lies between the minimum and 30% of the quantity; or the quantity is
    the minimum; or what is left of it by its first part, the largest multiple in 40% of it, is
    no more than the minimum either. -/
def Divisible (instrument : InstrumentRow) (minQty qty : ℚ) : Prop :=
  (∃ n : ℤ, minQty ≤ n * countedStep instrument ∧
    n * countedStep instrument ≤ qty * 3 / 10 + slack instrument) ∨
  (minQty ≤ qty ∧ qty ≤ minQty + 1 / 10 ^ 12) ∨
  ∃ n : ℤ, n * countedStep instrument ≤ qty * 4 / 10 + slack instrument ∧
    qty * 4 / 10 + slack instrument < (n + 1) * countedStep instrument ∧
    minQty ≤ n * countedStep instrument ∧ qty - n * countedStep instrument ≤ minQty + 1 / 10 ^ 12

section

variable {instrument : InstrumentRow} {action : Action} {minQty qty available quantity value : ℚ}

theorem countedUnits_nonneg (h : Stepped instrument) : 0 ≤ countedUnits instrument := by
  rw [countedUnits]
  rcases hq : Json.parseNumber (stepText instrument) with _ | q
  · exact le_rfl
  · have := h q hq
    exact Int.floor_nonneg.2 (by positivity)

/-- With a step, a quantity is rounded to the largest multiple in it. -/
theorem floorToStep_spec (hu : 0 < countedUnits instrument) (hv : 0 < value) :
    ∃ n : ℤ, 0 ≤ n ∧ floorToStep value (stepText instrument) = n * countedStep instrument ∧
      n * countedStep instrument ≤ value + slack instrument ∧
      value + slack instrument < (n + 1) * countedStep instrument := by
  have hscale : (0 : ℚ) < 10 ^ decimals (stepText instrument) := by positivity
  have hslack : (value + slack instrument) * 10 ^ decimals (stepText instrument) =
      value * 10 ^ decimals (stepText instrument) + 1 / 10 ^ 9 := by
    rw [add_mul, slack, div_mul_cancel₀ _ hscale.ne']
  have hmul : countedStep instrument * 10 ^ decimals (stepText instrument) =
      countedUnits instrument := div_mul_cancel₀ _ hscale.ne'
  set v : ℤ := ⌊value * 10 ^ decimals (stepText instrument) + 1 / 10 ^ 9⌋ with hfloor
  have hv0 : 0 ≤ v := Int.floor_nonneg.2 (by positivity)
  have heq : floorToStep value (stepText instrument) =
      (v / countedUnits instrument : ℤ) * countedStep instrument := by
    rw [floorToStep, ← countedUnits, ← hfloor, Int.fdiv_eq_ediv_of_nonneg _ hu.le]
    split
    · -- less than a unit is less than a step
      rename_i h
      rw [show v = 0 from le_antisymm (h.resolve_left hu.ne') hv0]
      simp
    · rw [Int.cast_mul, mul_div_assoc]
      rfl
  have hle : (v : ℚ) ≤ value * 10 ^ decimals (stepText instrument) + 1 / 10 ^ 9 := Int.floor_le _
  have hlt : value * 10 ^ decimals (stepText instrument) + 1 / 10 ^ 9 < v + 1 :=
    Int.lt_floor_add_one _
  have hdown : ((v / countedUnits instrument : ℤ) : ℚ) * countedUnits instrument ≤ v := by
    exact_mod_cast Int.ediv_mul_le v hu.ne'
  have hup : (v : ℚ) + 1 ≤ ((v / countedUnits instrument : ℤ) + 1) * countedUnits instrument := by
    exact_mod_cast Int.lt_ediv_add_one_mul_self v hu
  refine ⟨v / countedUnits instrument, Int.ediv_nonneg hv0 hu.le, heq, ?_, ?_⟩
  · refine le_of_mul_le_mul_right ?_ hscale
    rw [mul_assoc, hmul, hslack]
    linarith
  · refine lt_of_mul_lt_mul_right ?_ hscale.le
    rw [mul_assoc, hmul, hslack]
    linarith

theorem countedStep_nonneg (h : Stepped instrument) : 0 ≤ countedStep instrument :=
  div_nonneg (by exact_mod_cast countedUnits_nonneg h) (by positivity)

/-- Without a step, nothing is left. -/
theorem floorToStep_of_units (hu : countedUnits instrument = 0) (value : ℚ) :
    floorToStep value (stepText instrument) = 0 ∧ countedStep instrument = 0 := by
  refine ⟨?_, by rw [countedStep, hu, Int.cast_zero, zero_div]⟩
  rw [floorToStep, ← countedUnits, if_pos (.inl hu)]

/-- A quantity, rounded, is at least the minimum when a multiple lies between the two. -/
theorem le_floorToStep_iff (hs : Stepped instrument) (hmin : 0 < minQty) (hv : 0 < value) :
    minQty ≤ floorToStep value (stepText instrument) ↔
      ∃ n : ℤ, minQty ≤ n * countedStep instrument ∧
        n * countedStep instrument ≤ value + slack instrument := by
  rcases (countedUnits_nonneg hs).eq_or_lt with hu | hu
  · obtain ⟨hzero, hstep⟩ := floorToStep_of_units hu.symm value
    rw [hzero, hstep]
    simp [hmin.not_ge]
  · obtain ⟨n, -, heq, hle, hlt⟩ := floorToStep_spec hu hv
    rw [heq]
    refine ⟨fun h => ⟨n, h, hle⟩, fun ⟨k, hk, hkle⟩ => hk.trans ?_⟩
    have hkn : k < n + 1 := by
      have hkn : (k : ℚ) * countedStep instrument < (n + 1) * countedStep instrument :=
        hkle.trans_lt hlt
      exact_mod_cast lt_of_mul_lt_mul_right hkn (countedStep_nonneg hs)
    exact mul_le_mul_of_nonneg_right (by exact_mod_cast Int.lt_add_one_iff.1 hkn)
      (countedStep_nonneg hs)

/-- Rounding up is by no more than a billionth of what is left. -/
theorem floorToStep_le_mul (hs : Stepped instrument) (hv : 0 < value) :
    floorToStep value (stepText instrument) ≤ value * (101 / 100) := by
  rcases (countedUnits_nonneg hs).eq_or_lt with hu | hu
  · rw [(floorToStep_of_units hu.symm value).1]
    positivity
  · obtain ⟨n, hn, heq, hle, -⟩ := floorToStep_spec hu hv
    rw [heq]
    rcases hn.eq_or_lt with rfl | hn
    · rw [Int.cast_zero, zero_mul]
      positivity
    · have hone : (1 : ℚ) ≤ n * countedUnits instrument := by
        exact_mod_cast one_le_mul_of_one_le_of_one_le (Int.add_one_le_iff.2 hn)
          (Int.add_one_le_iff.2 hu)
      have hslack : slack instrument ≤ n * countedStep instrument / 10 ^ 9 :=
        calc slack instrument = 1 / 10 ^ decimals (stepText instrument) / 10 ^ 9 := by
              rw [slack, div_right_comm]
          _ ≤ n * countedUnits instrument / 10 ^ decimals (stepText instrument) / 10 ^ 9 := by
              gcongr
          _ = n * countedStep instrument / 10 ^ 9 := by rw [countedStep, mul_div_assoc]
      linarith

theorem closes_iff {closePct : ℚ} (hmin : Json.numberOrZero instrument.minOrderQty = some minQty) :
    Closes instrument action closePct minQty qty available quantity ↔
      minQty ≤ quantity ∧ quantity ≤ available ∧
        (floorToStep (min (qty * closePct / 100) available) (stepText instrument) = quantity ∨
          floorToStep (min (qty * closePct / 100) available) (stepText instrument) < minQty ∧
            available ≤ minQty + 1 / 10 ^ 12 ∧ available = quantity) := by
  have hstep : stepText instrument =
    Json.toText (Json.orElse instrument.qtyStep (some (.str "0"))) := rfl
  rw [Closes, closeQuantity, ← hstep]
  simp only [hmin]
  -- The whole position is closed where the part is below the minimum and no second one would
  -- fit.
  by_cases hlt : floorToStep (min (qty * closePct / 100) available) (stepText instrument) < minQty
  · by_cases hle : available ≤ minQty + 1 / 10 ^ 12
    · simp only [hlt, hle, if_true, Except.ok.injEq, true_and]
      constructor
      · rintro ⟨h, h₁, h₂⟩
        exact ⟨h₁, h₂, .inr h⟩
      · rintro ⟨h₁, h₂, h | h⟩
        · exact absurd (h ▸ hlt) h₁.not_gt
        · exact ⟨h, h₁, h₂⟩
    · simp only [hlt, hle, if_true, if_false, reduceCtorEq, false_and, and_false, or_false,
        false_iff]
      rintro ⟨h₁, -, h⟩
      exact absurd (h ▸ hlt) h₁.not_gt
  · simp only [hlt, if_false, Except.ok.injEq, false_and, or_false]
    tauto

theorem exists_closes_iff {closePct : ℚ}
    (hmin : Json.numberOrZero instrument.minOrderQty = some minQty) :
    (∃ quantity, Closes instrument action closePct minQty qty available quantity) ↔
      Takes minQty available
        (floorToStep (min (qty * closePct / 100) available) (stepText instrument)) := by
  simp only [closes_iff hmin]
  constructor
  · rintro ⟨quantity, h₁, h₂, rfl | ⟨h₃, h₄, rfl⟩⟩
    · exact .inl ⟨h₁, h₂⟩
    · exact .inr ⟨h₃, h₁, h₄⟩
  · rintro (⟨h₁, h₂⟩ | ⟨h₁, h₂, h₃⟩)
    · exact ⟨_, h₁, h₂, .inl rfl⟩
    · exact ⟨available, h₂, le_rfl, .inr ⟨h₁, h₃, rfl⟩⟩

/-- The parts of a position: all of it at once, or a first part and a second one. -/
theorem closable_iff_takes (hmin : Json.numberOrZero instrument.minOrderQty = some minQty)
    (hqty : 0 < qty) :
    Closable instrument qty ↔
      (floorToStep (qty * 4 / 10) (stepText instrument) < minQty ∧ minQty ≤ qty ∧
          qty ≤ minQty + 1 / 10 ^ 12) ∨
        (minQty ≤ floorToStep (qty * 4 / 10) (stepText instrument) ∧
          floorToStep (qty * 4 / 10) (stepText instrument) ≤ qty ∧
          (0 < qty - floorToStep (qty * 4 / 10) (stepText instrument) →
            Takes minQty (qty - floorToStep (qty * 4 / 10) (stepText instrument))
              (floorToStep (min (qty * tp2ClosePct / 100)
                (qty - floorToStep (qty * 4 / 10) (stepText instrument))) (stepText instrument)))) := by
  have hshare : min (qty * tp1ClosePct / 100) qty = qty * 4 / 10 := by
    rw [tp1ClosePct, min_eq_left (by linarith)]
    ring
  have hclosable : Closable instrument qty ↔
      ∃ first, Closes instrument .tp1 tp1ClosePct minQty qty qty first ∧ (0 < qty - first →
        ∃ second, Closes instrument .tp2 tp2ClosePct minQty qty (qty - first) second) := by
    simp only [Closable, hmin, Option.some.injEq, exists_eq_left']
  rw [hclosable]
  simp only [exists_closes_iff hmin]
  simp only [closes_iff hmin, hshare]
  constructor
  · rintro ⟨first, ⟨h₁, h₂, rfl | ⟨h₃, h₄, rfl⟩⟩, hrest⟩
    · exact .inr ⟨h₁, h₂, hrest⟩
    · exact .inl ⟨h₃, h₁, h₄⟩
  · rintro (⟨h₁, h₂, h₃⟩ | ⟨h₁, h₂, hrest⟩)
    · exact ⟨qty, ⟨h₂, le_rfl, .inr ⟨h₁, h₃, rfl⟩⟩, fun h => absurd h (by simp)⟩
    · exact ⟨_, ⟨h₁, h₂, .inl rfl⟩, hrest⟩

/-- The first part is the minimum, and what it leaves is no more than that. -/
theorem last_part_iff (hs : Stepped instrument) (hmin : 0 < minQty) (hqty : 0 < qty) :
    (minQty ≤ floorToStep (qty * 4 / 10) (stepText instrument) ∧
        qty - floorToStep (qty * 4 / 10) (stepText instrument) ≤ minQty + 1 / 10 ^ 12) ↔
      ∃ n : ℤ, n * countedStep instrument ≤ qty * 4 / 10 + slack instrument ∧
        qty * 4 / 10 + slack instrument < (n + 1) * countedStep instrument ∧
        minQty ≤ n * countedStep instrument ∧
        qty - n * countedStep instrument ≤ minQty + 1 / 10 ^ 12 := by
  rcases (countedUnits_nonneg hs).eq_or_lt with hu | hu
  · obtain ⟨hzero, hstep⟩ := floorToStep_of_units hu.symm (qty * 4 / 10)
    rw [hzero, hstep]
    simp [hmin.not_ge]
  · obtain ⟨n, -, heq, hle, hlt⟩ := floorToStep_spec hu (show 0 < qty * 4 / 10 by positivity)
    rw [heq]
    refine ⟨fun ⟨h₁, h₂⟩ => ⟨n, hle, hlt, h₁, h₂⟩, fun ⟨k, hk, hklt, h₁, h₂⟩ => ?_⟩
    -- there is one such multiple
    have hstep := countedStep_nonneg hs
    have hnk : (n : ℚ) < k + 1 := lt_of_mul_lt_mul_right (hle.trans_lt hklt) hstep
    have hkn : (k : ℚ) < n + 1 := lt_of_mul_lt_mul_right (hk.trans_lt hlt) hstep
    have hnk : n < k + 1 := by exact_mod_cast hnk
    have hkn : k < n + 1 := by exact_mod_cast hkn
    obtain rfl : k = n := by omega
    exact ⟨h₁, h₂⟩

/-- Both parts can be closed just when the quantity is divisible. -/
theorem closable_iff (hmin : Json.numberOrZero instrument.minOrderQty = some minQty)
    (hmin0 : 0 < minQty) (hs : Stepped instrument) (hqty : 0 < qty) :
    Closable instrument qty ↔ Divisible instrument minQty qty := by
  rw [closable_iff_takes hmin hqty, Divisible, ← last_part_iff hs hmin0 hqty,
    ← le_floorToStep_iff hs hmin0 (show 0 < qty * 3 / 10 by positivity)]
  have hfirst := floorToStep_le_mul hs (show 0 < qty * 4 / 10 by positivity)
  have hsecond := floorToStep_le_mul hs (show 0 < qty * 3 / 10 by positivity)
  -- what is in 30% of the quantity is in 40% of it
  have hmono : minQty ≤ floorToStep (qty * 3 / 10) (stepText instrument) →
      minQty ≤ floorToStep (qty * 4 / 10) (stepText instrument) := by
    rw [le_floorToStep_iff hs hmin0 (by positivity), le_floorToStep_iff hs hmin0 (by positivity)]
    exact fun ⟨n, hn, hle⟩ => ⟨n, hn, by linarith⟩
  have hshare : min (qty * tp2ClosePct / 100)
      (qty - floorToStep (qty * 4 / 10) (stepText instrument)) = qty * 3 / 10 := by
    rw [tp2ClosePct, min_eq_left (by linarith)]
    ring
  rw [hshare, Takes]
  constructor
  · rintro (⟨-, h₁, h₂⟩ | ⟨h₁, -, hrest⟩)
    · exact .inr (.inl ⟨h₁, h₂⟩)
    · rcases hrest (by linarith) with ⟨h₃, -⟩ | ⟨-, -, h₅⟩
      · exact .inl h₃
      · exact .inr (.inr ⟨h₁, h₅⟩)
  · have htiny : (0 : ℚ) < 1 / 10 ^ 12 := by norm_num
    rintro (h | ⟨h₁, h₂⟩ | ⟨h₁, h₂⟩)
    · exact .inr ⟨hmono h, by linarith, fun _ => .inl ⟨h, by linarith⟩⟩
    · by_cases hlt : floorToStep (qty * 4 / 10) (stepText instrument) < minQty
      · exact .inl ⟨hlt, h₁, h₂⟩
      · -- all of it is the minimum, and so is what the first part leaves
        rw [not_lt] at hlt
        refine .inr ⟨hlt, by linarith, fun _ => ?_⟩
        by_cases hle : minQty ≤ floorToStep (qty * 3 / 10) (stepText instrument)
        · exact .inl ⟨hle, by linarith⟩
        · exact .inr ⟨not_le.1 hle, by linarith, by linarith⟩
    · refine .inr ⟨h₁, by linarith, fun _ => ?_⟩
      by_cases hle : minQty ≤ floorToStep (qty * 3 / 10) (stepText instrument)
      · exact .inl ⟨hle, by linarith⟩
      · exact .inr ⟨not_le.1 hle, by linarith, h₂⟩

end

/-! ## The first level -/

/-- The errors of the first level that are the program's own: the close was not seen filled. -/
def NotFilled (e : JsError) : Prop :=
  e = .error (actionText .tp1 ++ " close is not fill-verified; management remains fail-closed")

/-- A position filled with a quantity whose first level is reached gets its stop at the entry,
    unless a request fails or the close is not seen filled. -/
def BreaksEven (instrument : InstrumentRow) (qty : ℚ) : Prop :=
  ∀ (command : Command) (side : Side) (position : PositionRow) (o : Observation)
    (state : ManagementState) (plan : ManagementPlan), Json.numberOrZero position.size = some qty →
    o.instrument = instrument → state.plan = some plan → plan.initialQty = qty →
    state.tp1Done = false → reached o.mark plan.tp1Price side →
    ∀ t r, Prog.Trace (takeFirst command side position o state) t (.done r) →
      match r with
      | .ok state' => state'.breakEvenDone = true ∧
          ∃ m, .call m (.bybit (.setTradingStop (breakEvenStop command plan position))) (.ok ()) ∈ t
      | .error e => NotFilled e ∨ ∃ m o, .call m o (.error e) ∈ t

section

variable {command : Command} {side : Side} {position : PositionRow} {o : Observation}
  {state : ManagementState} {plan : ManagementPlan} {E : JsError → Prop}

theorem recordOrder_raises (command : Command) (status : String) :
    (HybridRepository.recordOrder command status).Raises E := by
  refine .bind (fun m => .ret _) fun usable => ?_
  split
  · exact .handle fun e => fun m => .ret _
  · exact .ret _

theorem recordFills_raises (command : Command) (executions : List ExecutionRow) :
    (HybridRepository.recordFills command executions).Raises E := by
  refine .bind (fun m => .ret _) fun usable => ?_
  split
  · exact .handle fun e => fun m => .ret _
  · exact .ret _

theorem findOrder_raises (symbol : String) (linkId : LinkId) :
    (BybitClient.findOrder symbol linkId).Raises E := by
  refine .bind (.request _) fun rows => ?_
  rcases rows with _ | ⟨current, rows⟩
  · exact .bind (.request _) fun history => .ret _
  · exact .ret _

theorem waitForResolution_raises (symbol : String) (linkId : LinkId) (expectedQty : Option ℚ) :
    (BybitClient.waitForResolution symbol linkId expectedQty).Raises E := by
  refine .bind (.request _) fun polls => ?_
  suffices hpoll : ∀ n order executions,
      (BybitClient.poll symbol linkId expectedQty n order executions).Raises E from hpoll _ _ _
  intro n
  induction n with
  | zero => exact fun order executions => .ret _
  | succ n ih =>
    refine fun order executions => .bind (.par (findOrder_raises symbol linkId) (.request _)) ?_
    rintro ⟨order', executions'⟩
    dsimp only
    split
    · exact .ret _
    · exact ih _ _

theorem settle_raises (symbol : String) (linkId : LinkId) (quantity : ℚ) :
    (closeFraction.settle command .tp1 symbol linkId quantity).Raises NotFilled := by
  refine .bind (waitForResolution_raises symbol linkId quantity) fun resolution =>
    .bind (recordFills_raises command resolution.executions) fun _ => .bind ?_ fun _ =>
      .bind (recordOrder_raises command _) fun _ => .ret _
  rw [Prog.require]
  split
  · exact .ret ()
  · exact .throw rfl

/-- The first level fails for want of an answer, or of a fill, where the part has a quantity. -/
theorem takeFirst_raises {quantity : ℚ} (hplan : state.plan = some plan)
    (hqty : closeQuantity plan.initialQty ((Json.numberOrZero position.size).getD 0) o.instrument
      .tp1 tp1ClosePct = .ok quantity) :
    (takeFirst command side position o state).Raises NotFilled := by
  rw [takeFirst, hplan]
  dsimp only
  split
  · refine .bind ?_ fun closedQty => .bind (.bind (.request _) fun _ => recordOrder_raises _ _)
      fun _ => .ret _
    rw [closeFraction, hqty]
    refine .bind (.ret quantity) fun _ => .bind (findOrder_raises _ _) fun prior =>
      .bind (.request _) fun executions => ?_
    split
    · exact .bind (recordOrder_raises _ _) fun _ => .bind (.request _) fun _ => settle_raises _ _ _
    · exact settle_raises _ _ _
  · exact .ret _

/-- A first level that is taken has moved the stop to the entry. -/
theorem takeFirst_ok {t : List (Event Memory JsError Op.Val)} {state' : ManagementState}
    (hplan : state.plan = some plan) (hdone : state.tp1Done = false)
    (hreached : reached o.mark plan.tp1Price side)
    (h : Prog.Trace (takeFirst command side position o state) t (.done (.ok state'))) :
    state'.breakEvenDone = true ∧
      ∃ m, .call m (.bybit (.setTradingStop (breakEvenStop command plan position))) (.ok ()) ∈ t := by
  rw [takeFirst, hplan] at h
  dsimp only at h
  rw [if_pos ⟨by simp [hdone], hreached⟩] at h
  obtain ⟨t₁, t₂, closedQty, rfl, -, h⟩ := Prog.Trace.bind_ok h
  obtain ⟨t₂, t₃, _, rfl, hmove, h⟩ := Prog.Trace.bind_ok h
  obtain ⟨rfl, hstate⟩ := Prog.Trace.done_iff.1 h
  obtain ⟨t₂, t₄, _, rfl, hstop, -⟩ := Prog.Trace.bind_ok hmove
  obtain ⟨m, rfl⟩ := Prog.Trace.request_ok hstop
  obtain rfl := Except.ok.inj (Prog.done.inj hstate)
  exact ⟨rfl, m, by simp⟩

/-- Where the first part has no quantity, the first level ends there: nothing is closed,
    and the stop stays where it is. -/
theorem takeFirst_of_error {e : JsError}
    (hplan : state.plan = some plan) (hdone : state.tp1Done = false)
    (hreached : reached o.mark plan.tp1Price side)
    (hqty : closeQuantity plan.initialQty ((Json.numberOrZero position.size).getD 0) o.instrument
      .tp1 tp1ClosePct = .error e) : takeFirst command side position o state = .done (.error e) := by
  rw [takeFirst, hplan]
  dsimp only
  rw [if_pos ⟨by simp [hdone], hreached⟩, closeFraction, hqty]
  rfl

end

/-- A position whose first part can be closed gets its stop at the entry. -/
theorem Closable.breaksEven {instrument : InstrumentRow} {qty : ℚ} (h : Closable instrument qty) :
    BreaksEven instrument qty := by
  obtain ⟨minQty, -, first, ⟨hfirst, -⟩, -⟩ := h
  rintro command side position o state plan hsize rfl hplan rfl hdone hreached t r ht
  rcases r with e | state'
  · refine Prog.Raises.of_trace (@takeFirst_raises _ _ _ _ _ _ first hplan ?_) ht
    rw [hsize]
    exact hfirst
  · exact takeFirst_ok hplan hdone hreached ht

/-! ## Quantities of a plan -/
/-- The step that the manager reads of the instrument of a plan is not negative. -/
theorem stepped_of_limit {instrument : InstrumentRow} {step : ℚ}
    (h : Json.limitOrZero instrument.qtyStep = some (step : WithTop ℚ)) (hstep : 0 < step) :
    Stepped instrument := by
  have hnumber := Json.toNumber_of_toLimit h
  have htruthy : Json.truthy instrument.qtyStep = true := by
    by_contra hfalse
    rw [Json.orElse, if_neg hfalse] at hnumber
    exact hstep.ne (Option.some.inj hnumber)
  intro q hq
  rw [Json.orElse, if_pos htruthy] at hnumber hq
  -- a text and an array are read as one number, and the text of a number has no sign
  rcases hf : instrument.qtyStep with _ | (_ | b | r | s | l | l)
  · exact absurd (hf ▸ htruthy) (by decide)
  · exact absurd (hf ▸ htruthy) (by decide)
  · rcases b with _ | _
    · exact absurd (hf ▸ htruthy) (by decide)
    · rw [hf, show Json.parseNumber (Json.toText (some (.bool true))) = none by decide +kernel] at hq
      cases hq
  · rw [hf] at hnumber hq
    obtain rfl := Option.some.inj hnumber
    exact parseNumber_nonneg (startsWithDigit_numberText hstep.le) hq
  · rw [hf] at hnumber hq
    obtain rfl := Option.some.inj (hq.symm.trans hnumber)
    exact hstep.le
  · rw [hf] at hnumber hq
    obtain rfl := Option.some.inj (hq.symm.trans hnumber)
    exact hstep.le
  · rw [hf] at hnumber
    cases hnumber

end TradeManager

end IntradayBot.Node
