import Mathlib.Algebra.Order.BigOperators.Group.List
import Mathlib.Tactic.NormNum
import IntradayBot.Data.Decimal

/-!
# Double arithmetic

The rationals that a binary number of 53 places holds, to the nearest, ties to even
(`Double.round`). Exponents have a least value, but no largest one: numbers beyond the
largest double are not treated.

`Double.sum` adds numbers one after the other, and `Double.compensatedSum` keeps track of
what each addition loses, as Neumaier does. What both are away from the exact sum is small
against the sum of the absolute values (`abs_sum_sub_le`, `abs_compensatedSum_sub_le`).
-/

namespace IntradayBot.Double

/-- The exponent of the last place of a number. -/
def lastExponent (q : ℚ) : ℤ := max (Int.log 2 |q| - 52) (-1074)

/-- The nearest double, the even one of two. -/
def round (q : ℚ) : ℚ := Decimal.roundHalfEven (q / 2 ^ lastExponent q) * 2 ^ lastExponent q

/-- The numbers added one after the other. -/
def sum (l : List ℚ) : ℚ := l.foldl (fun s q => round (s + q)) 0

/-- A sum, and what its additions have lost. -/
structure Compensated where
  total : ℚ
  lost : ℚ

/-- Of two numbers added, the smaller one loses its last places. -/
def Compensated.add (s : Compensated) (q : ℚ) : Compensated :=
  let total := round (s.total + q)
  let lost :=
    if |q| ≤ |s.total| then round (round (s.total - total) + q)
    else round (round (q - total) + s.total)
  ⟨total, round (s.lost + lost)⟩

def Compensated.value (s : Compensated) : ℚ :=
  if s.lost = 0 then s.total else round (s.total + s.lost)

/-- The numbers added one after the other, and what was lost at the end. -/
def compensatedSum (l : List ℚ) : ℚ := (l.foldl Compensated.add ⟨0, 0⟩).value

/-! ## What one rounding loses -/

/-- What a rounding loses at most, of one. -/
def unit : ℚ := 1 / 2 ^ 53

/-- The least number that is as exact as larger ones. -/
def least : ℚ := 1 / 2 ^ 1022

theorem unit_pos : 0 < unit := by
  rw [unit]
  positivity

theorem unit_le : unit ≤ 1 / 16 := by
  rw [unit]
  norm_num

theorem least_pos : 0 < least := by
  rw [least]
  positivity

@[simp] theorem round_zero : round 0 = 0 := by
  have h := Decimal.roundHalfEven_intCast 0
  rw [Int.cast_zero] at h
  rw [round, zero_div, h, Int.cast_zero, zero_mul]

theorem abs_roundHalfEven_sub_le (q : ℚ) : |(Decimal.roundHalfEven q : ℚ) - q| ≤ 1 / 2 := by
  have hup := Decimal.roundHalfEven_le_add_half q
  have hdown := Decimal.roundHalfEven_le_add_half (-q)
  rw [Decimal.Context.roundHalfEven_neg, Int.cast_neg] at hdown
  exact abs_le.2 ⟨by linarith, by linarith⟩

/-- A rounding is half of a last place away. -/
theorem abs_round_sub_le_half (q : ℚ) : |round q - q| ≤ 2 ^ lastExponent q / 2 := by
  have hpos : (0 : ℚ) < 2 ^ lastExponent q := zpow_pos two_pos _
  have hscaled : round q - q =
      (Decimal.roundHalfEven (q / 2 ^ lastExponent q) - q / 2 ^ lastExponent q) *
        2 ^ lastExponent q := by
    rw [round, sub_mul, div_mul_cancel₀ _ hpos.ne']
  rw [hscaled, abs_mul, abs_of_pos hpos]
  have := mul_le_mul_of_nonneg_right (abs_roundHalfEven_sub_le (q / 2 ^ lastExponent q)) hpos.le
  linarith

theorem abs_round_sub_le (q : ℚ) : |round q - q| ≤ unit * (|q| + least) := by
  have hleast := mul_pos unit_pos least_pos
  rcases eq_or_ne q 0 with rfl | hq
  · simp only [round_zero, sub_self, abs_zero, zero_add]
    exact hleast.le
  have hhalf := abs_round_sub_le_half q
  have habs := mul_nonneg unit_pos.le (abs_nonneg q)
  rw [mul_add]
  rcases max_choice (Int.log 2 |q| - 52) (-1074) with hexp | hexp
  · -- the last place is the 53rd one
    have hlog := Int.zpow_log_le_self one_lt_two (abs_pos.2 hq)
    have hplace : (2 : ℚ) ^ lastExponent q / 2 = 2 ^ Int.log 2 |q| * unit := by
      rw [lastExponent, hexp, zpow_sub₀ two_ne_zero, unit]
      norm_num
      ring
    rw [hplace] at hhalf
    have hscaled := mul_le_mul_of_nonneg_right hlog unit_pos.le
    push_cast at hscaled
    linarith
  · have hplace : (2 : ℚ) ^ lastExponent q / 2 = unit * least := by
      have hpow : (2 : ℚ) ^ (53 + 1022) = 2 ^ 1074 * 2 := pow_succ 2 1074
      have hzpow : (2 : ℚ) ^ (-1074 : ℤ) = (2 ^ 1074)⁻¹ := zpow_neg 2 1074
      rw [lastExponent, hexp, hzpow, unit, least, one_div_mul_one_div, ← pow_add, hpow, one_div,
        mul_inv, div_eq_mul_inv]
    rw [hplace] at hhalf
    linarith

/-! ## What many roundings lose -/

variable {σ : Type}

theorem sum_abs_nonneg (l : List ℚ) : 0 ≤ (l.map abs).sum :=
  List.sum_nonneg fun x hx => by
    obtain ⟨y, -, rfl⟩ := List.mem_map.1 hx
    exact abs_nonneg y

/-- Where each step loses a part of what there is, and adds as much at most, all steps lose no more
    than a part. -/
theorem abs_foldl_sub_le {add : σ → ℚ → σ} {value magnitude : σ → ℚ} {ε : ℚ} (hε : 0 ≤ ε)
    (hlost : ∀ s q, |value (add s q) - (value s + q)| ≤ ε * (magnitude s + |q|))
    (hmore : ∀ s q, magnitude (add s q) ≤ (1 + ε) * (magnitude s + |q|))
    (hmagnitude : ∀ s, 0 ≤ magnitude s) (l : List ℚ) (s : σ) :
    |value (l.foldl add s) - (value s + l.sum)| ≤
        ((1 + ε) ^ l.length - 1) * (magnitude s + (l.map abs).sum) ∧
      magnitude (l.foldl add s) ≤ (1 + ε) ^ l.length * (magnitude s + (l.map abs).sum) := by
  induction l generalizing s with
  | nil => simp
  | cons q l ih =>
    obtain ⟨hvalue, hmagn⟩ := ih (add s q)
    have hsum := sum_abs_nonneg l
    have hpow : (1 : ℚ) ≤ (1 + ε) ^ l.length := one_le_pow₀ (by linarith)
    have hsucc : (1 + ε) ^ (l.length + 1) = (1 + ε) ^ l.length * (1 + ε) := pow_succ ..
    have hstep := hmore s q
    have hbase : 0 ≤ magnitude s + |q| := add_nonneg (hmagnitude s) (abs_nonneg q)
    -- what the later steps see is what there is now, and a part of it
    have hafter : magnitude (add s q) + (l.map abs).sum ≤
        (1 + ε) * (magnitude s + |q| + (l.map abs).sum) := by nlinarith
    rw [List.foldl_cons, List.sum_cons, List.map_cons, List.sum_cons, List.length_cons, hsucc]
    constructor
    · have htriangle := abs_add_le (value (l.foldl add (add s q)) - (value (add s q) + l.sum))
        (value (add s q) - (value s + q))
      rw [show value (l.foldl add (add s q)) - (value (add s q) + l.sum) +
        (value (add s q) - (value s + q)) = value (l.foldl add (add s q)) - (value s + (q + l.sum))
          by ring] at htriangle
      have hscaled := mul_le_mul_of_nonneg_left hafter (sub_nonneg.2 hpow)
      have hnow := hlost s q
      nlinarith
    · have hscaled := mul_le_mul_of_nonneg_left hafter (zero_le_one.trans hpow)
      linarith

/-- A few small parts are no more than twice their number. -/
theorem one_add_pow_le {ε : ℚ} (hε : 0 ≤ ε) (n : ℕ) (hn : n * ε ≤ 1 / 2) :
    (1 + ε) ^ n ≤ 1 + 2 * (n * ε) := by
  induction n with
  | zero => simp
  | succ n ih =>
    push_cast at hn ⊢
    have hle := ih (by linarith)
    have hscaled := mul_le_mul_of_nonneg_right hle (by linarith : 0 ≤ 1 + ε)
    rw [pow_succ]
    nlinarith

/-! ## Sums -/

/-- The part that one step of a sum loses at most. -/
def part : ℚ := 16 * unit

theorem part_nonneg : 0 ≤ part := by
  have := unit_pos
  rw [part]
  linarith

/-- What the sum of numbers loses. -/
theorem abs_sum_sub_le (l : List ℚ) :
    |sum l - l.sum| ≤ ((1 + part) ^ l.length - 1) * (least + (l.map abs).sum) := by
  have hunit := unit_pos
  have hround : ∀ s q : ℚ, |round (s + q) - (s + q)| ≤ unit * (|s| + least + |q|) := fun s q =>
    (abs_round_sub_le (s + q)).trans
      (mul_le_mul_of_nonneg_left (by linarith [abs_add_le s q]) hunit.le)
  have hbase : ∀ s q : ℚ, 0 ≤ |s| + least + |q| := fun s q => by
    linarith [abs_nonneg s, abs_nonneg q, least_pos]
  have hpart : ∀ s q : ℚ, unit * (|s| + least + |q|) ≤ part * (|s| + least + |q|) := fun s q =>
    mul_le_mul_of_nonneg_right (by rw [part]; linarith) (hbase s q)
  have hmore : ∀ s q : ℚ, |round (s + q)| + least ≤ (1 + part) * (|s| + least + |q|) := fun s q => by
    have hfar := abs_sub_abs_le_abs_sub (round (s + q)) (s + q)
    linarith [hround s q, hpart s q, abs_add_le s q]
  have h := @abs_foldl_sub_le ℚ (fun s q => round (s + q)) id (fun s => |s| + least) part part_nonneg
    (fun s q => (hround s q).trans (hpart s q)) hmore
    (fun s => by linarith [abs_nonneg s, least_pos]) l 0
  simpa [sum] using h.1

/-- What an addition loses is found out but for a part. -/
theorem abs_lost_le {a b t x : ℚ} (hsum : |t - (a + b)| ≤ unit * x) (hb : |b| ≤ x)
    (hleast : least ≤ x) :
    |round (round (a - t) + b)| ≤ 6 * (unit * x) ∧
      |round (round (a - t) + b) - (a + b - t)| ≤ 5 * (unit * x) := by
  have hunit := unit_pos
  have hx : 0 ≤ x := least_pos.le.trans hleast
  have hpart : unit * x ≤ x / 16 := by
    have := mul_le_mul_of_nonneg_right unit_le hx
    linarith
  rw [abs_le] at hsum hb
  have hdiff : |a - t| ≤ 2 * x := abs_le.2 ⟨by linarith, by linarith⟩
  have hfirst : |round (a - t) - (a - t)| ≤ 3 * (unit * x) :=
    (abs_round_sub_le _).trans (by
      have := mul_le_mul_of_nonneg_left (add_le_add hdiff hleast) hunit.le
      linarith)
  rw [abs_le] at hfirst
  have hsmall : |round (a - t) + b| ≤ x := abs_le.2 ⟨by linarith, by linarith⟩
  have hsecond : |round (round (a - t) + b) - (round (a - t) + b)| ≤ 2 * (unit * x) :=
    (abs_round_sub_le _).trans (by
      have := mul_le_mul_of_nonneg_left (add_le_add hsmall hleast) hunit.le
      linarith)
  rw [abs_le] at hsecond
  exact ⟨abs_le.2 ⟨by linarith, by linarith⟩, abs_le.2 ⟨by linarith, by linarith⟩⟩

/-- What a compensated addition loses. -/
theorem Compensated.add_bounds (s : Compensated) (q : ℚ) :
    |(s.add q).total + (s.add q).lost - (s.total + s.lost + q)| ≤
        part * (|s.total| + |s.lost| + least + |q|) ∧
      |(s.add q).total| + |(s.add q).lost| + least ≤
        (1 + part) * (|s.total| + |s.lost| + least + |q|) := by
  have hunit := unit_pos
  have hleast := least_pos
  have htotal := abs_nonneg s.total
  have hlost := abs_nonneg s.lost
  have hq := abs_nonneg q
  set x := |s.total| + |s.lost| + least + |q| with hx
  have hpart : unit * x ≤ x / 16 := by
    have := mul_le_mul_of_nonneg_right unit_le (by linarith : 0 ≤ x)
    linarith
  have hsum : |round (s.total + q) - (s.total + q)| ≤ unit * x :=
    (abs_round_sub_le _).trans
      (mul_le_mul_of_nonneg_left (by linarith [abs_add_le s.total q]) hunit.le)
  -- either number may be the larger one
  obtain ⟨lost, hadd, hsmall, hfound⟩ : ∃ lost,
      s.add q = ⟨round (s.total + q), round (s.lost + lost)⟩ ∧ |lost| ≤ 6 * (unit * x) ∧
        |lost - (s.total + q - round (s.total + q))| ≤ 5 * (unit * x) := by
    by_cases hlarger : |q| ≤ |s.total|
    · have h := abs_lost_le hsum (b := q) (by linarith) (by linarith)
      exact ⟨_, by rw [Compensated.add, if_pos hlarger], h⟩
    · have hswap : |round (s.total + q) - (q + s.total)| ≤ unit * x := by rwa [add_comm q]
      have h := abs_lost_le hswap (by linarith) (by linarith)
      rw [add_comm q s.total] at h
      exact ⟨_, by rw [Compensated.add, if_neg hlarger], h⟩
  have hsecond : |s.lost + lost| ≤ 2 * x := (abs_add_le _ _).trans (by linarith)
  have hrounded : |round (s.lost + lost) - (s.lost + lost)| ≤ 3 * (unit * x) :=
    (abs_round_sub_le _).trans (by
      have := mul_le_mul_of_nonneg_left (add_le_add hsecond (by linarith : least ≤ x)) hunit.le
      linarith)
  have htotal' := abs_sub_abs_le_abs_sub (round (s.total + q)) (s.total + q)
  have hlost' := abs_sub_abs_le_abs_sub (round (s.lost + lost)) (s.lost + lost)
  have hpos : 0 ≤ unit * x := (abs_nonneg _).trans hsum
  rw [hadd, part]
  constructor
  · rw [abs_le] at hfound hrounded ⊢
    exact ⟨by linarith, by linarith⟩
  · linarith [abs_add_le s.total q, abs_add_le s.lost lost]

/-- What the compensated sum of numbers loses. -/
theorem abs_compensatedSum_sub_le (l : List ℚ) :
    |compensatedSum l - l.sum| ≤ ((1 + part) ^ (l.length + 1) - 1) * (least + (l.map abs).sum) := by
  obtain ⟨hvalue, hmagnitude⟩ := @abs_foldl_sub_le Compensated Compensated.add
    (fun s => s.total + s.lost) (fun s => |s.total| + |s.lost| + least) part part_nonneg
    (fun s q => (s.add_bounds q).1) (fun s q => (s.add_bounds q).2)
    (fun s => by linarith [abs_nonneg s.total, abs_nonneg s.lost, least_pos]) l ⟨0, 0⟩
  simp only [abs_zero, add_zero, zero_add] at hvalue hmagnitude
  rw [compensatedSum]
  set s := l.foldl Compensated.add ⟨0, 0⟩
  have hbase := abs_nonneg s.total
  have hlost := abs_nonneg s.lost
  have hleast := least_pos
  have hlast : |s.value - (s.total + s.lost)| ≤ part * (|s.total| + |s.lost| + least) := by
    have hpart := mul_nonneg part_nonneg (by linarith : 0 ≤ |s.total| + |s.lost| + least)
    rw [Compensated.value]
    split
    · rename_i hzero
      have hsame : s.total - (s.total + s.lost) = 0 := by rw [hzero, add_zero, sub_self]
      rw [hsame, abs_zero]
      exact hpart
    · refine (abs_round_sub_le _).trans ?_
      have hadd := abs_add_le s.total s.lost
      have hunit := mul_le_mul_of_nonneg_left
        (by linarith : |s.total + s.lost| + least ≤ |s.total| + |s.lost| + least) unit_pos.le
      have := mul_nonneg unit_pos.le (by linarith : 0 ≤ |s.total| + |s.lost| + least)
      rw [part]
      linarith
  have htriangle := abs_add_le (s.value - (s.total + s.lost)) (s.total + s.lost - l.sum)
  rw [sub_add_sub_cancel] at htriangle
  have hscaled := mul_le_mul_of_nonneg_left hmagnitude part_nonneg
  rw [pow_succ]
  linarith

/-! ## Sums of rounded numbers -/

/-- What rounding numbers takes from their exact sum, and adds to that of their absolute values. -/
theorem sum_map_round_bounds (l : List ℚ) :
    |(l.map round).sum - l.sum| ≤ unit * ((l.map abs).sum + l.length * least) ∧
      ((l.map round).map abs).sum ≤
        (l.map abs).sum + unit * ((l.map abs).sum + l.length * least) := by
  induction l with
  | nil => simp
  | cons q l ih =>
    have hround := abs_round_sub_le q
    have hfar := abs_sub_abs_le_abs_sub (round q) q
    have htriangle := abs_add_le (round q - q) ((l.map round).sum - l.sum)
    rw [show round q - q + ((l.map round).sum - l.sum) = round q + (l.map round).sum - (q + l.sum)
      by ring] at htriangle
    simp only [List.map_cons, List.sum_cons, List.length_cons]
    push_cast
    constructor
    · linarith [ih.1]
    · linarith [ih.2]

/-- A sum that loses little of rounded numbers loses little of the numbers. -/
theorem abs_rounded_sub_le {l : List ℚ} {s : ℚ} {n : ℕ}
    (h : |s - (l.map round).sum| ≤ ((1 + part) ^ n - 1) * (least + ((l.map round).map abs).sum)) :
    |s - l.sum| ≤
      ((1 + part) ^ (n + 1) - 1) * ((l.map abs).sum + (l.length + 1) * least) := by
  obtain ⟨hvalue, hmagnitude⟩ := sum_map_round_bounds l
  have hunit := unit_pos
  have hleast := least_pos
  have hsum := sum_abs_nonneg l
  have hlength : (0 : ℚ) ≤ l.length := Nat.cast_nonneg _
  set x := (l.map abs).sum + (l.length + 1) * least with hx
  have hmore : (l.map abs).sum + l.length * least ≤ x := by rw [hx]; linarith
  have hxpos : 0 ≤ x := le_trans (add_nonneg hsum (mul_nonneg hlength hleast.le)) hmore
  have hpow : (1 : ℚ) ≤ (1 + part) ^ n := one_le_pow₀ (by linarith [part_nonneg])
  have hbase : least + ((l.map round).map abs).sum ≤ (1 + unit) * x := by
    have hrounds := mul_le_mul_of_nonneg_left hmore hunit.le
    have hleasts := mul_nonneg hlength hleast.le
    linarith
  have hscaled := mul_le_mul_of_nonneg_left hbase (sub_nonneg.2 hpow)
  have hrounds := mul_le_mul_of_nonneg_left hmore hunit.le
  have htriangle := abs_add_le (s - (l.map round).sum) ((l.map round).sum - l.sum)
  rw [sub_add_sub_cancel] at htriangle
  have hpart : (1 + part) ^ n * (1 + unit) * x ≤ (1 + part) ^ n * (1 + part) * x := by
    have hle : unit ≤ part := by rw [part]; linarith
    have := mul_le_mul_of_nonneg_left hle (zero_le_one.trans hpow)
    have := mul_le_mul_of_nonneg_right this hxpos
    linarith
  rw [pow_succ]
  linarith

/-- The parts that a few steps lose. -/
theorem part_pow_le {n : ℕ} (hn : n ≤ 2 ^ 10) : (1 + part) ^ n - 1 ≤ 1 / 2 ^ 38 := by
  have hsteps : (n : ℚ) * part ≤ 1 / 2 ^ 39 := by
    have hle : (n : ℚ) ≤ 2 ^ 10 := by exact_mod_cast hn
    calc (n : ℚ) * part ≤ 2 ^ 10 * part := mul_le_mul_of_nonneg_right hle part_nonneg
      _ = 1 / 2 ^ 39 := by norm_num [part, unit]
  have hhalf : (n : ℚ) * part ≤ 1 / 2 := hsteps.trans (by norm_num)
  have := one_add_pow_le part_nonneg n hhalf
  have : (2 : ℚ) * (1 / 2 ^ 39) = 1 / 2 ^ 38 := by norm_num
  linarith

/-- Few rounded numbers lose little. -/
theorem abs_rounded_sub_le_of_few {l : List ℚ} {s : ℚ} {n : ℕ} (hn : n < 2 ^ 10)
    (hl : l.length < 2 ^ 10)
    (h : |s - (l.map round).sum| ≤ ((1 + part) ^ n - 1) * (least + ((l.map round).map abs).sum)) :
    |s - l.sum| ≤ ((l.map abs).sum + 1 / 2 ^ 1000) / 2 ^ 38 := by
  have hlength : ((l.length : ℚ) + 1) * least ≤ 1 / 2 ^ 1000 := by
    have hle : (l.length : ℚ) + 1 ≤ 2 ^ 10 := by exact_mod_cast hl
    calc ((l.length : ℚ) + 1) * least ≤ 2 ^ 10 * least :=
          mul_le_mul_of_nonneg_right hle least_pos.le
      _ = 2 ^ 10 / 2 ^ 22 * (1 / 2 ^ 1000) := by
          have hpow : (2 : ℚ) ^ (22 + 1000) = 2 ^ 22 * 2 ^ 1000 := pow_add 2 22 1000
          rw [least, show 1022 = 22 + 1000 from rfl, hpow, mul_one_div, div_mul_div_comm, mul_one]
      _ ≤ 1 / 2 ^ 1000 := mul_le_of_le_one_left (by positivity) (by norm_num)
  have hbase : 0 ≤ (l.map abs).sum + ((l.length : ℚ) + 1) * least :=
    add_nonneg (sum_abs_nonneg l) (mul_nonneg (by positivity) least_pos.le)
  calc |s - l.sum|
      ≤ ((1 + part) ^ (n + 1) - 1) * ((l.map abs).sum + (l.length + 1) * least) :=
        abs_rounded_sub_le h
    _ ≤ 1 / 2 ^ 38 * ((l.map abs).sum + (l.length + 1) * least) :=
        mul_le_mul_of_nonneg_right (part_pow_le hn) hbase
    _ ≤ 1 / 2 ^ 38 * ((l.map abs).sum + 1 / 2 ^ 1000) := by
        gcongr
    _ = ((l.map abs).sum + 1 / 2 ^ 1000) / 2 ^ 38 := one_div_mul_eq_div _ _

end IntradayBot.Double
