import Mathlib.Tactic.Linarith
import Mathlib.Tactic.Positivity
import IntradayBot.Node.LiveSizer

/-!
# Rounding to a step

What `floorToStep`, `floorPrice` and `ceilPrice` give. A step is counted in units of a
scale, and the scale comes from the text of the step: values are rounded to multiples of
the step as it is counted (`counted`), which is the step itself where that is a whole number
of units (`counted_eq_iff`). A value is rounded down to the multiple below it, or up, by less
than a billionth of a unit, to a multiple that it all but reaches (`floorToStep_spec`).
-/

namespace IntradayBot.Node

theorem roundHalfUp_intCast (n : ℤ) : roundHalfUp n = n := by
  rw [roundHalfUp, Int.floor_intCast_add]
  norm_num

namespace LiveSizer

/-- The units in one that a step is counted in. -/
def scale (step : ℚ) : ℚ := 10 ^ min 12 (decimalPlaces step)

/-- The step as it is counted: the nearest whole number of units, one at least. -/
def counted (step : ℚ) : ℚ := (max 1 (roundHalfUp (step * scale step)) : ℤ) / scale step

variable {value step tick : ℚ}

theorem one_le_scale (step : ℚ) : 1 ≤ scale step := one_le_pow₀ (by norm_num)

theorem scale_pos (step : ℚ) : 0 < scale step := one_pos.trans_le (one_le_scale step)

theorem scale_le (step : ℚ) : scale step ≤ 10 ^ 12 :=
  pow_le_pow_right₀ (by norm_num) (min_le_left _ _)

theorem counted_mul_scale (step : ℚ) :
    counted step * scale step = (max 1 (roundHalfUp (step * scale step)) : ℤ) :=
  div_mul_cancel₀ _ (scale_pos step).ne'

/-- No step is counted as less than a unit. -/
theorem unit_le_counted (step : ℚ) : 1 / scale step ≤ counted step := by
  have hone : (1 : ℚ) ≤ (max 1 (roundHalfUp (step * scale step)) : ℤ) := by
    exact_mod_cast le_max_left _ _
  have := scale_pos step
  rw [counted]
  gcongr

theorem counted_pos (step : ℚ) : 0 < counted step :=
  (one_div_pos.2 (scale_pos step)).trans_le (unit_le_counted step)

theorem le_counted (step : ℚ) : 1 / 10 ^ 12 ≤ counted step :=
  (one_div_le_one_div_of_le (scale_pos step) (scale_le step)).trans (unit_le_counted step)

/-- A step is counted as itself just when it is a whole number of units. -/
theorem counted_eq_iff (hs : 0 < step) :
    counted step = step ↔ ∃ units : ℤ, step * scale step = units := by
  constructor
  · intro h
    exact ⟨_, h ▸ counted_mul_scale step⟩
  · rintro ⟨units, hunits⟩
    have hpos : (0 : ℚ) < units := hunits ▸ mul_pos hs (scale_pos step)
    have hone : 1 ≤ units := by exact_mod_cast hpos
    rw [counted, hunits, roundHalfUp_intCast, max_eq_right hone, ← hunits,
      mul_div_cancel_right₀ _ (scale_pos step).ne']

theorem pos_of_floorToStep (h : 0 < floorToStep value step) : 0 < step ∧ 0 < value := by
  by_contra hneg
  rw [floorToStep, if_neg hneg] at h
  exact lt_irrefl _ h

theorem floorToStep_eq (hs : 0 < step) (hv : 0 < value) :
    floorToStep value step =
      (⌊value * scale step + 1 / 10 ^ 9⌋ / max 1 (roundHalfUp (step * scale step)) *
        max 1 (roundHalfUp (step * scale step)) : ℤ) / scale step :=
  if_pos ⟨hs, hv⟩

/-- What is rounded is a multiple of the step as it is counted: the largest one that is at
    most the value, up to a billionth of a unit. -/
theorem floorToStep_spec (hs : 0 < step) (hv : 0 < value) :
    ∃ n : ℤ, 0 ≤ n ∧ floorToStep value step = n * counted step ∧
      n * counted step ≤ value + 1 / 10 ^ 9 / scale step ∧ value < (n + 1) * counted step := by
  have hscale := scale_pos step
  have hcounted := counted_mul_scale step
  have hunits : 0 < max 1 (roundHalfUp (step * scale step)) := lt_max_of_lt_left one_pos
  rw [floorToStep_eq hs hv]
  -- the value in units, and the step in units
  set units := max 1 (roundHalfUp (step * scale step))
  set v : ℤ := ⌊value * scale step + 1 / 10 ^ 9⌋
  have hv0 : 0 ≤ v := Int.floor_nonneg.2 (by positivity)
  have hle : (v : ℚ) ≤ value * scale step + 1 / 10 ^ 9 := Int.floor_le _
  have hlt : value * scale step + 1 / 10 ^ 9 < v + 1 := Int.lt_floor_add_one _
  have hdown : ((v / units * units : ℤ) : ℚ) ≤ v := by
    exact_mod_cast Int.ediv_mul_le v hunits.ne'
  have hup : (v : ℚ) + 1 ≤ ((v / units + 1) * units : ℤ) := by
    exact_mod_cast Int.lt_ediv_add_one_mul_self v hunits
  refine ⟨v / units, Int.ediv_nonneg hv0 hunits.le, ?_, ?_, ?_⟩
  · rw [Int.cast_mul, mul_div_assoc]
    rfl
  · refine le_of_mul_le_mul_right ?_ hscale
    rw [mul_assoc, hcounted, add_mul, div_mul_cancel₀ _ hscale.ne']
    push_cast at hdown
    linarith
  · refine lt_of_mul_lt_mul_right ?_ hscale.le
    rw [mul_assoc, hcounted]
    push_cast at hup
    linarith [show (0 : ℚ) < 1 / 10 ^ 9 by norm_num]

/-- What is rounded is a multiple of the step as it is counted, also when nothing is left. -/
theorem exists_floorToStep (hs : 0 < step) (value : ℚ) :
    ∃ n : ℤ, floorToStep value step = n * counted step := by
  by_cases hv : 0 < value
  · obtain ⟨n, -, heq, -, -⟩ := floorToStep_spec hs hv
    exact ⟨n, heq⟩
  · exact ⟨0, by simp [floorToStep, hv]⟩

theorem floorToStep_nonneg (value step : ℚ) : 0 ≤ floorToStep value step := by
  by_cases h : 0 < step ∧ 0 < value
  · obtain ⟨n, hn, heq, -, -⟩ := floorToStep_spec h.1 h.2
    rw [heq]
    exact mul_nonneg (by exact_mod_cast hn) (counted_pos step).le
  · rw [floorToStep, if_neg h]

/-- A positive multiple of the step as it is counted. -/
theorem exists_of_floorToStep (h : 0 < floorToStep value step) :
    ∃ n : ℤ, 0 < n ∧ floorToStep value step = n * counted step := by
  obtain ⟨n, -, heq, -, -⟩ := floorToStep_spec (pos_of_floorToStep h).1 (pos_of_floorToStep h).2
  have hpos : (0 : ℚ) < n := pos_of_mul_pos_left (heq ▸ h) (counted_pos step).le
  exact ⟨n, by exact_mod_cast hpos, heq⟩

/-- What is not rounded to zero is not below the finest unit. -/
theorem le_floorToStep (hv : 0 < floorToStep value step) : 1 / 10 ^ 12 ≤ floorToStep value step := by
  obtain ⟨n, hn, heq⟩ := exists_of_floorToStep hv
  have hone : (1 : ℚ) ≤ n := by exact_mod_cast hn
  calc 1 / 10 ^ 12 ≤ counted step := le_counted step
    _ ≤ n * counted step := le_mul_of_one_le_left (counted_pos step).le hone
    _ = floorToStep value step := heq.symm

/-- A value is not rounded up by more than a billionth of a unit. -/
theorem floorToStep_le (hv : 0 < floorToStep value step) :
    floorToStep value step ≤ value + 1 / 10 ^ 9 := by
  obtain ⟨n, -, heq, hle, -⟩ := floorToStep_spec (pos_of_floorToStep hv).1 (pos_of_floorToStep hv).2
  have hunit : 1 / 10 ^ 9 / scale step ≤ 1 / 10 ^ 9 := div_le_self (by positivity) (one_le_scale step)
  linarith

/-- A multiple at most the value, up to a billionth of a unit, is at most the value
    itself, if that is a multiple too. -/
theorem mul_counted_le {n m : ℤ}
    (h : n * counted step ≤ m * counted step + 1 / 10 ^ 9 / scale step) : n ≤ m := by
  by_contra hlt
  have hgap : ((m : ℚ) + 1) * counted step ≤ n * counted step :=
    mul_le_mul_of_nonneg_right (by exact_mod_cast not_le.1 hlt) (counted_pos step).le
  have hsmall : 1 / 10 ^ 9 / scale step < 1 / scale step :=
    div_lt_div_of_pos_right (by norm_num) (scale_pos step)
  linarith [unit_le_counted step]

/-- A multiple of the step as it is counted is not rounded. -/
theorem floorToStep_mul (hs : 0 < step) {m : ℤ} (hm : 0 < m * counted step) :
    floorToStep (m * counted step) step = m * counted step := by
  obtain ⟨n, -, heq, hle, hlt⟩ := floorToStep_spec hs hm
  have hnm : n ≤ m := mul_counted_le hle
  have hmn : (m : ℚ) < n + 1 := lt_of_mul_lt_mul_right hlt (counted_pos step).le
  have hmn : m < n + 1 := by exact_mod_cast hmn
  rw [heq, show n = m by omega]

/-- From `1e-6` up to `1e21`, a step of at most 12 decimals is counted as itself. -/
theorem counted_of_decimals (hs : 1 / 10 ^ 6 ≤ step) (hlarge : step < 10 ^ 21)
    (hd : step.den ∣ 10 ^ 12) : counted step = step := by
  have hpos : 0 < step := lt_of_lt_of_le (by norm_num) hs
  have hsmall : ¬(step ≠ 0 ∧ |step| < 1 / 10 ^ 6) := fun h => h.2.not_ge (hs.trans (le_abs_self _))
  obtain ⟨d, hfind, hle⟩ : ∃ d, Json.decimalsOf step = some d ∧ d ≤ 12 := by
    have hsome : (Json.decimalsOf step).isSome :=
      List.find?_isSome.2 ⟨12, by simp, by simpa using hd⟩
    obtain ⟨d, hfind⟩ := Option.isSome_iff_exists.1 hsome
    refine ⟨d, hfind, ?_⟩
    by_contra hlt
    exact absurd hd (by simpa using (List.find?_range_eq_some.1 hfind).2.2 12 (by omega))
  have hdiv : step.den ∣ 10 ^ d := by simpa using List.find?_some hfind
  obtain ⟨c, hc⟩ := hdiv
  have hden : ((step.den : ℕ) : ℚ) * c = 10 ^ d := by exact_mod_cast hc.symm
  refine (counted_eq_iff hpos).2 ⟨step.num * c, ?_⟩
  rw [scale, decimalPlaces, if_neg hsmall, if_pos (by rwa [abs_of_pos hpos]), hfind,
    Option.getD_some, min_eq_right hle, ← hden, ← mul_assoc, Rat.mul_den_eq_num]
  push_cast
  ring

/-! ## Prices -/

/-- What a tick is counted as is a whole number of ticks. -/
def TickCounted (tick : Option ℚ) : Prop := ∀ t ∈ tick, 0 < t → ∃ n : ℤ, counted t = n * t

/-- The tick that prices are rounded to, if there is one. -/
def positiveTick (tick : Option ℚ) : Option ℚ := tick.filter (0 < ·)

theorem floorPrice_eq (value : ℚ) (tick : Option ℚ) :
    floorPrice value tick = (positiveTick tick).elim value (floorToStep value) := by
  rcases tick with _ | t
  · rfl
  · by_cases ht : 0 < t <;> simp [floorPrice, positiveTick, Option.filter, ht]

/-- What is rounded up, to a positive tick. -/
def ceilToStep (value tick : ℚ) : ℚ :=
  if value ≤ floorToStep value tick + 1 / 10 ^ 12 then floorToStep value tick
  else floorToStep value tick + tick

theorem ceilPrice_eq (value : ℚ) (tick : Option ℚ) :
    ceilPrice value tick = (positiveTick tick).elim value (ceilToStep value) := by
  rcases tick with _ | t
  · rfl
  · by_cases ht : 0 < t <;> simp [ceilPrice, ceilToStep, floorPrice, positiveTick, Option.filter, ht]

theorem positiveTick_pos {tick : Option ℚ} {t : ℚ} (h : positiveTick tick = some t) : 0 < t := by
  simpa using (Option.filter_eq_some_iff.1 h).2

theorem positiveTick_eq {tick : Option ℚ} {t : ℚ} (h : t ∈ tick) (ht : 0 < t) :
    positiveTick tick = some t :=
  Option.filter_eq_some_iff.2 ⟨h, by simpa using ht⟩

theorem TickCounted.counted {tick : Option ℚ} (h : TickCounted tick) {t : ℚ}
    (ht : positiveTick tick = some t) : ∃ n : ℤ, counted t = n * t := by
  obtain ⟨hmem, hpos⟩ := Option.filter_eq_some_iff.1 ht
  exact h t hmem (by simpa using hpos)

/-- Rounding up adds nothing, or a whole tick. -/
theorem floorToStep_le_ceilToStep (ht : 0 < tick) (value : ℚ) :
    floorToStep value tick ≤ ceilToStep value tick := by
  unfold ceilToStep
  split
  · exact le_rfl
  · linarith

/-- The units of a step are not larger than it, unless they are the finest ones. -/
theorem one_le_units (hs : 0 < step) (h : decimalPlaces step < 12) :
    1 ≤ step * 10 ^ decimalPlaces step := by
  have habs : |step| = step := abs_of_pos hs
  unfold decimalPlaces at h ⊢
  rw [habs] at h ⊢
  split
  · rename_i hsmall
    rw [if_pos hsmall] at h
    rcases hfind : (List.range 400).find? fun d => 1 ≤ step * 10 ^ d with _ | d
    · simp [hfind] at h
    · simpa using List.find?_some hfind
  · rename_i hsmall
    rw [if_neg hsmall] at h
    split
    · rename_i hlarge
      rw [if_pos hlarge] at h
      rcases hfind : Json.decimalsOf step with _ | d
      · simp [hfind] at h
      · -- a positive whole number
        obtain ⟨c, hc⟩ : step.den ∣ 10 ^ d := by simpa using List.find?_some hfind
        have hden : ((step.den : ℕ) : ℚ) * c = 10 ^ d := by exact_mod_cast hc.symm
        have hc0 : (0 : ℚ) < c :=
          pos_of_mul_pos_right (hden ▸ by positivity : (0 : ℚ) < step.den * c) (by positivity)
        have hnum : (1 : ℚ) ≤ step.num := by exact_mod_cast Rat.num_pos.2 hs
        have hc1 : (1 : ℚ) ≤ c := by exact_mod_cast hc0
        rw [Option.getD_some, ← hden, ← mul_assoc, Rat.mul_den_eq_num]
        exact one_le_mul_of_one_le_of_one_le hnum hc1
    · rename_i hlarge
      exact one_le_mul_of_one_le_of_one_le ((by norm_num : (1 : ℚ) ≤ 10 ^ 21).trans (not_lt.1 hlarge))
        (one_le_pow₀ (by norm_num))

/-- A tick that divides what it is counted as is counted as itself, or in the finest units. -/
theorem counted_eq_or_le (ht : 0 < tick) {n : ℤ} (h : counted tick = n * tick) :
    counted tick = tick ∨ counted tick ≤ 1 / 10 ^ 12 := by
  rcases eq_or_ne n 1 with rfl | hn
  · exact .inl (by simpa using h)
  refine .inr ?_
  have hscale := scale_pos tick
  have hn0 : (0 : ℚ) < n := pos_of_mul_pos_left (h ▸ counted_pos tick) ht.le
  have hn2 : (2 : ℚ) ≤ n := by
    have hn0 : 0 < n := by exact_mod_cast hn0
    exact_mod_cast (show 2 ≤ n by omega)
  have hpos : 0 < tick * scale tick := mul_pos ht hscale
  have hunits := counted_mul_scale tick
  -- twice the tick is at most what it is counted as, so that is one unit
  have htwice : 2 * (tick * scale tick) ≤ (max 1 (roundHalfUp (tick * scale tick)) : ℤ) := by
    rw [← hunits, h, mul_assoc]
    exact mul_le_mul_of_nonneg_right hn2 hpos.le
  have hround : (roundHalfUp (tick * scale tick) : ℚ) ≤ tick * scale tick + 1 / 2 := Int.floor_le _
  have hone : max 1 (roundHalfUp (tick * scale tick)) = 1 := by
    refine max_eq_left ?_
    by_contra hlt
    rw [max_eq_right (by omega)] at htwice
    have hle : (2 : ℚ) ≤ roundHalfUp (tick * scale tick) := by
      exact_mod_cast (show 2 ≤ roundHalfUp (tick * scale tick) by omega)
    linarith
  rw [hone, Int.cast_one] at htwice hunits
  by_contra hlt
  have hplaces : decimalPlaces tick < 12 := by
    by_contra hge
    rw [scale, min_eq_left (not_lt.1 hge)] at hunits
    exact hlt ((eq_div_iff (by positivity)).2 hunits).le
  have := one_le_units ht hplaces
  rw [scale, min_eq_right hplaces.le] at htwice
  linarith

/-- What is rounded up is a multiple of the tick as it is counted. -/
theorem exists_ceilToStep (ht : 0 < tick) (h : ∃ n : ℤ, counted tick = n * tick) (value : ℚ) :
    ∃ k : ℤ, ceilToStep value tick = k * counted tick := by
  obtain ⟨m, hm⟩ := exists_floorToStep ht value
  obtain ⟨n, hn⟩ := h
  rw [ceilToStep]
  split
  · exact ⟨m, hm⟩
  · rename_i hlt
    rcases counted_eq_or_le ht hn with heq | hle
    · exact ⟨m + 1, by rw [hm, heq]; push_cast; ring⟩
    · -- nothing lies between two of the finest units
      by_cases hv : 0 < value
      · obtain ⟨k, -, hk, -, hup⟩ := floorToStep_spec ht hv
        exact absurd (by rw [hk]; linarith) hlt
      · exact absurd ((not_lt.1 hv).trans (add_nonneg (floorToStep_nonneg _ _) (by norm_num))) hlt

end LiveSizer

end IntradayBot.Node
