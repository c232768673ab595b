import Mathlib.Algebra.Order.Round
import Mathlib.Data.Int.Log
import Mathlib.Data.Rat.Floor
import Mathlib.Tactic.FieldSimp
import Mathlib.Tactic.Linarith
import Mathlib.Tactic.Positivity
import Mathlib.Tactic.Ring

/-!
# Decimal arithmetic

Floating decimal arithmetic, as in the General Decimal Arithmetic Specification:
numbers are rationals, and the result of an operation is the exact one, rounded
to the digits of the *context*, to the nearest, ties to even (`Context.fit`). A
context may also keep all digits, and its arithmetic is then exact.

`Context.quantize` keeps a number of decimals, and drops the others. It fails on
what has then more digits than the context.

The numbers of so many decimals are a grid (`OnGrid`). On it, a sum either is
exact or does not quantize: sums of quantized numbers can be added up as if
nothing was ever rounded (`quantize_add`, `quantize_sub`).
-/

namespace IntradayBot.Decimal

/-- The nearest integer, the even one of two. -/
def roundHalfEven (q : ℚ) : ℤ :=
  if Int.fract q < 1 / 2 then ⌊q⌋
  else if 1 / 2 < Int.fract q then ⌊q⌋ + 1
  else if ⌊q⌋ % 2 = 0 then ⌊q⌋ else ⌊q⌋ + 1

/-- The integer part, towards zero. -/
def truncate (q : ℚ) : ℤ := if 0 ≤ q then ⌊q⌋ else ⌈q⌉

/-- The digits that operations keep; `none` keeps them all. -/
structure Context where
  prec : Option ℕ
  pos : ∀ digits, prec = some digits → 0 < digits

/-- The default context: 28 digits. -/
def Context.default : Context where
  prec := some 28
  pos := by simp

/-- The context of exact arithmetic. -/
def Context.exact : Context where
  prec := none
  pos := by simp

/-- The place of the last of so many digits of a number. -/
def lastPlace (digits : ℕ) (q : ℚ) : ℚ := 10 ^ (Int.log 10 |q| + 1 - digits)

/-- The number has so many decimals. -/
def OnGrid (places : ℕ) (q : ℚ) : Prop := ∃ n : ℤ, q = n / 10 ^ places

/-! ## Rounding -/

theorem roundHalfEven_intCast (n : ℤ) : roundHalfEven n = n := by
  rw [roundHalfEven, Int.fract_intCast, if_pos (by norm_num), Int.floor_intCast]

theorem floor_le_roundHalfEven (q : ℚ) : ⌊q⌋ ≤ roundHalfEven q := by
  rw [roundHalfEven]
  split
  · exact le_rfl
  split
  · exact Int.le_add_one le_rfl
  split
  · exact le_rfl
  · exact Int.le_add_one le_rfl

theorem roundHalfEven_le (q : ℚ) : roundHalfEven q ≤ ⌈q⌉ := by
  have hfloor : ⌊q⌋ ≤ ⌈q⌉ := Int.floor_le_ceil q
  have hup : 1 / 2 ≤ Int.fract q → ⌊q⌋ + 1 ≤ ⌈q⌉ := fun h => by
    have hq : (⌊q⌋ : ℚ) < q := by
      have := Int.floor_add_fract q
      linarith
    exact Int.add_one_le_iff.2 (Int.lt_ceil.2 hq)
  rw [roundHalfEven]
  split
  · exact hfloor
  rename_i h
  split
  · exact hup (not_lt.1 h)
  split
  · exact hfloor
  · exact hup (not_lt.1 h)

theorem roundHalfEven_le_add_half (q : ℚ) : roundHalfEven q ≤ q + 1 / 2 := by
  have hq := Int.floor_add_fract q
  rw [roundHalfEven]
  split
  · linarith [Int.fract_nonneg q]
  rename_i h
  have hup : ((⌊q⌋ + 1 : ℤ) : ℚ) ≤ q + 1 / 2 := by
    push_cast
    linarith [not_lt.1 h]
  split
  · exact hup
  split
  · linarith [Int.fract_nonneg q]
  · exact hup

theorem le_roundHalfEven {n : ℤ} {q : ℚ} (h : n ≤ q) : n ≤ roundHalfEven q :=
  (Int.le_floor.2 h).trans (floor_le_roundHalfEven q)

theorem roundHalfEven_le_of_le {n : ℤ} {q : ℚ} (h : q ≤ n) : roundHalfEven q ≤ n :=
  (roundHalfEven_le q).trans (Int.ceil_le.2 h)

/-- Rounding keeps what is at least an integer away from zero. -/
theorem le_abs_roundHalfEven {n : ℤ} {q : ℚ} (h : n ≤ |q|) : n ≤ |roundHalfEven q| := by
  rcases le_total 0 q with hq | hq
  · rw [abs_of_nonneg hq] at h
    exact (le_roundHalfEven h).trans (le_abs_self _)
  · rw [abs_of_nonpos hq] at h
    have : roundHalfEven q ≤ -n := roundHalfEven_le_of_le (by push_cast; linarith)
    exact (by linarith : n ≤ -roundHalfEven q).trans (neg_le_abs _)

theorem truncate_intCast (n : ℤ) : truncate n = n := by
  rw [truncate, Int.floor_intCast, Int.ceil_intCast, ite_self]

theorem le_abs_truncate {n : ℤ} {q : ℚ} (h : n ≤ |q|) : n ≤ |truncate q| := by
  rw [truncate]
  split
  · rename_i hq
    rw [abs_of_nonneg hq] at h
    exact (Int.le_floor.2 h).trans (le_abs_self _)
  · rename_i hq
    rw [abs_of_neg (not_le.1 hq)] at h
    have : ⌈q⌉ ≤ -n := Int.ceil_le.2 (by push_cast; linarith)
    exact (by linarith : n ≤ -⌈q⌉).trans (neg_le_abs _)

/-- Truncating goes towards zero. -/
theorem truncate_nonneg {q : ℚ} (h : 0 ≤ q) : 0 ≤ truncate q := by
  rw [truncate, if_pos h]
  exact Int.floor_nonneg.2 h

theorem truncate_le {q : ℚ} (h : 0 ≤ q) : truncate q ≤ q := by
  rw [truncate, if_pos h]
  exact Int.floor_le q

theorem truncate_nonpos {q : ℚ} (h : q ≤ 0) : truncate q ≤ 0 := by
  rw [truncate]
  split
  · rename_i hq
    rw [le_antisymm h hq, Int.floor_zero]
  · exact Int.ceil_le.2 (by exact_mod_cast h)

/-- Between two integers, truncating goes to one of them. -/
theorem truncate_mem {n : ℤ} {q : ℚ} (hl : n ≤ q) (hr : q ≤ n + 1) :
    n ≤ truncate q ∧ truncate q ≤ n + 1 := by
  rw [truncate]
  split
  · exact ⟨Int.le_floor.2 hl, by exact_mod_cast (Int.floor_le q).trans hr⟩
  · exact ⟨by exact_mod_cast hl.trans (Int.le_ceil q), Int.ceil_le.2 (by exact_mod_cast hr)⟩

theorem truncate_mono {x y : ℚ} (h : x ≤ y) : truncate x ≤ truncate y := by
  rcases le_or_gt 0 x with hx | hx
  · rw [truncate, truncate, if_pos hx, if_pos (hx.trans h)]
    exact Int.floor_mono h
  rcases le_or_gt 0 y with hy | hy
  · exact (truncate_nonpos hx.le).trans (truncate_nonneg hy)
  · rw [truncate, truncate, if_neg hx.not_ge, if_neg hy.not_ge]
    exact Int.ceil_mono h

/-! ## Places -/

theorem lastPlace_pos (digits : ℕ) (q : ℚ) : 0 < lastPlace digits q := zpow_pos (by norm_num) _

theorem abs_div_lastPlace {digits : ℕ} {q : ℚ} :
    |q / lastPlace digits q| = |q| / lastPlace digits q := by
  rw [abs_div, abs_of_pos (lastPlace_pos digits q)]

/-- A number has its first digit at the place of its logarithm. -/
theorem le_div_lastPlace {digits : ℕ} (hd : 0 < digits) {q : ℚ} (hq : q ≠ 0) :
    10 ^ (digits - 1) ≤ |q| / lastPlace digits q := by
  rw [le_div_iff₀ (lastPlace_pos _ _), lastPlace, ← zpow_natCast, ← zpow_add₀ (by norm_num)]
  have h : ((digits - 1 : ℕ) : ℤ) + (Int.log 10 |q| + 1 - digits) = Int.log 10 |q| := by omega
  rw [h]
  exact Int.zpow_log_le_self (by norm_num) (abs_pos.2 hq)

/-- Of a number that is small enough, the last place is at most that of the grid. -/
theorem exists_grid_eq {digits places : ℕ} {q : ℚ} (hne : q ≠ 0)
    (hlt : |q| < (10 : ℚ) ^ ((digits : ℤ) - places)) :
    ∃ k : ℕ, (1 / 10 ^ places : ℚ) = 10 ^ k * lastPlace digits q := by
  have hlog : Int.log 10 |q| < (digits : ℤ) - places :=
    (Int.lt_zpow_iff_log_lt (b := 10) (by norm_num) (abs_pos.2 hne)).1 (by exact_mod_cast hlt)
  obtain ⟨k, hk⟩ : ∃ k : ℕ, (digits : ℤ) - places - Int.log 10 |q| - 1 = k :=
    Int.eq_ofNat_of_zero_le (by linarith)
  refine ⟨k, ?_⟩
  have hplace : lastPlace digits q = 10 ^ (-(places : ℤ) - k) := by
    rw [lastPlace]
    congr 1
    linarith
  rw [hplace, zpow_sub₀ (by norm_num), zpow_neg, zpow_natCast, zpow_natCast]
  field_simp

/-! ## Operations -/

namespace Context

variable (ctx : Context)

/-- The number, rounded to the digits of the context. -/
def fit (q : ℚ) : ℚ :=
  match ctx.prec with
  | none => q
  | some digits => if q = 0 then 0 else roundHalfEven (q / lastPlace digits q) * lastPlace digits q

/-- `x + y` -/
def add (x y : ℚ) : ℚ := ctx.fit (x + y)

/-- `x - y` -/
def sub (x y : ℚ) : ℚ := ctx.fit (x - y)

/-- `x * y` -/
def mul (x y : ℚ) : ℚ := ctx.fit (x * y)

/-- `x / y`, for a `y` that is not zero. -/
def div (x y : ℚ) : ℚ := ctx.fit (x / y)

/-- `-x` -/
def neg (x : ℚ) : ℚ := ctx.fit (-x)

/-- `abs(x)` -/
def abs (x : ℚ) : ℚ := ctx.fit |x|

/-- `sum(l)` -/
def sum (l : List ℚ) : ℚ := l.foldl ctx.add 0

/-- An integer has no more digits than the context keeps. -/
def Keeps (n : ℤ) : Prop := ∀ digits, ctx.prec = some digits → |n| < 10 ^ digits

instance (n : ℤ) : Decidable (ctx.Keeps n) :=
  match h : ctx.prec with
  | none => .isTrue fun _ hd => absurd (h.symm.trans hd) nofun
  | some digits => decidable_of_iff (|n| < 10 ^ digits)
      ⟨fun hn _ hd => Option.some.inj (h.symm.trans hd) ▸ hn, fun hn => hn digits h⟩

/-- The number, cut to so many decimals, has no more digits than the context keeps. -/
def Room (places : ℕ) (q : ℚ) : Prop := ctx.Keeps (truncate (q * 10 ^ places))

instance (places : ℕ) (q : ℚ) : Decidable (ctx.Room places q) :=
  inferInstanceAs (Decidable (ctx.Keeps _))

/-- The number with so many decimals, the others dropped; fails on more digits than the
    context keeps. -/
def quantize (places : ℕ) (q : ℚ) : Option ℚ :=
  if ctx.Keeps (truncate (q * 10 ^ places)) then some (truncate (q * 10 ^ places) / 10 ^ places)
  else none

variable {ctx}

theorem fit_zero : ctx.fit 0 = 0 := by
  rw [fit]
  split
  · rfl
  · exact if_pos rfl

/-! ### Signs -/

theorem fit_pos {q : ℚ} (h : 0 < q) : 0 < ctx.fit q := by
  rw [fit]
  split
  · exact h
  rename_i digits hd
  rw [if_neg h.ne']
  refine mul_pos ?_ (lastPlace_pos _ _)
  have hle := le_div_lastPlace (ctx.pos digits hd) h.ne'
  rw [abs_of_pos h] at hle
  have hone : (1 : ℚ) ≤ 10 ^ (digits - 1) := one_le_pow₀ (by norm_num)
  have : (1 : ℤ) ≤ roundHalfEven (q / lastPlace digits q) :=
    le_roundHalfEven (by push_cast; exact hone.trans hle)
  exact_mod_cast this

theorem fit_nonneg {q : ℚ} (h : 0 ≤ q) : 0 ≤ ctx.fit q := by
  rcases h.eq_or_lt with rfl | h
  · exact fit_zero.ge
  · exact (fit_pos h).le

theorem fit_nonpos {q : ℚ} (h : q ≤ 0) : ctx.fit q ≤ 0 := by
  rw [fit]
  split
  · exact h
  rename_i digits _
  split
  · exact le_rfl
  · refine mul_nonpos_of_nonpos_of_nonneg ?_ (lastPlace_pos _ _).le
    have : roundHalfEven (q / lastPlace digits q) ≤ 0 := roundHalfEven_le_of_le <| by
      push_cast
      exact div_nonpos_of_nonpos_of_nonneg h (lastPlace_pos _ _).le
    exact_mod_cast this

/-! ### Sizes -/

/-- A number of few digits is kept. -/
theorem fit_of_lt {digits places : ℕ} (hd : ctx.prec = some digits) {n : ℤ}
    (hn : |n| < 10 ^ digits) : ctx.fit (n / 10 ^ places) = n / 10 ^ places := by
  set q : ℚ := n / 10 ^ places with hq
  rw [fit, hd]
  dsimp only
  split
  · rename_i h
    exact h.symm
  rename_i hne
  -- the last place is that of an integer part of `n`
  have hlt : |q| < (10 : ℚ) ^ ((digits : ℤ) - places) := by
    have : |(n : ℚ)| < 10 ^ digits := by exact_mod_cast hn
    rw [hq, abs_div, abs_of_pos (by positivity : (0 : ℚ) < 10 ^ places), zpow_sub₀ (by norm_num),
      zpow_natCast, zpow_natCast]
    gcongr
  obtain ⟨k, hk⟩ := exists_grid_eq hne hlt
  have hdiv : q / lastPlace digits q = ((n * 10 ^ k : ℤ) : ℚ) := by
    rw [div_eq_iff (lastPlace_pos _ _).ne']
    calc q = n * (1 / 10 ^ places) := by rw [hq, mul_one_div]
      _ = ((n * 10 ^ k : ℤ) : ℚ) * lastPlace digits q := by
        rw [hk]
        push_cast
        ring
  rw [hdiv, roundHalfEven_intCast, ← hdiv, div_mul_cancel₀ _ (lastPlace_pos _ _).ne']

/-- A number of many digits keeps them. -/
theorem le_abs_fit {digits : ℕ} (hd : ctx.prec = some digits) {q : ℚ} {k : ℤ}
    (h : (10 : ℚ) ^ k ≤ |q|) : (10 : ℚ) ^ k ≤ |ctx.fit q| := by
  have hne : q ≠ 0 := by
    rintro rfl
    rw [abs_zero] at h
    exact absurd h (zpow_pos (by norm_num) k).not_ge
  have hlog : k ≤ Int.log 10 |q| :=
    (Int.zpow_le_iff_le_log (b := 10) (by norm_num) (abs_pos.2 hne)).1 (by exact_mod_cast h)
  rw [fit, hd]
  dsimp only
  rw [if_neg hne, abs_mul, abs_of_pos (lastPlace_pos _ _)]
  have hround : (10 : ℚ) ^ (digits - 1) ≤ |(roundHalfEven (q / lastPlace digits q) : ℚ)| := by
    have hle : ((10 ^ (digits - 1) : ℤ) : ℚ) ≤ |q / lastPlace digits q| := by
      push_cast
      exact (le_div_lastPlace (ctx.pos digits hd) hne).trans_eq abs_div_lastPlace.symm
    exact_mod_cast le_abs_roundHalfEven hle
  calc (10 : ℚ) ^ k ≤ 10 ^ Int.log 10 |q| := zpow_le_zpow_right₀ (by norm_num) hlog
    _ = 10 ^ (digits - 1) * lastPlace digits q := by
      have := ctx.pos digits hd
      rw [lastPlace, ← zpow_natCast, ← zpow_add₀ (by norm_num)]
      congr 1
      omega
    _ ≤ _ := mul_le_mul_of_nonneg_right hround (lastPlace_pos _ _).le

/-! ### Quantized numbers -/

variable {places : ℕ} {q r x y : ℚ}

theorem quantize_eq_some : ctx.quantize places q = some r ↔
    ctx.Keeps (truncate (q * 10 ^ places)) ∧ r = truncate (q * 10 ^ places) / 10 ^ places := by
  rw [quantize, Option.ite_none_right_eq_some, Option.some_inj, eq_comm (a := r)]

theorem onGrid_quantize (h : ctx.quantize places q = some r) : OnGrid places r :=
  ⟨_, (quantize_eq_some.1 h).2⟩

theorem quantize_nonneg (h : ctx.quantize places q = some r) (hq : 0 ≤ q) : 0 ≤ r := by
  obtain ⟨-, rfl⟩ := quantize_eq_some.1 h
  have : 0 ≤ truncate (q * 10 ^ places) := truncate_nonneg (by positivity)
  positivity

theorem quantize_le (h : ctx.quantize places q = some r) (hq : 0 ≤ q) : r ≤ q := by
  obtain ⟨-, rfl⟩ := quantize_eq_some.1 h
  rw [div_le_iff₀ (by positivity)]
  exact truncate_le (by positivity)

/-- What is positive once its last decimals are dropped was no less before. -/
theorem quantize_le_of_pos (h : ctx.quantize places q = some r) (hr : 0 < r) : r ≤ q := by
  rcases le_total 0 q with hq | hq
  · exact quantize_le h hq
  · obtain ⟨-, rfl⟩ := quantize_eq_some.1 h
    have : truncate (q * 10 ^ places) ≤ 0 :=
      truncate_nonpos (mul_nonpos_of_nonpos_of_nonneg hq (by positivity))
    exact absurd hr (div_nonpos_of_nonpos_of_nonneg (by exact_mod_cast this) (by positivity)).not_gt

/-- Less than a unit of the last place is dropped. -/
theorem lt_quantize (h : ctx.quantize places q = some r) (hq : 0 ≤ q) :
    q - 1 / 10 ^ places < r := by
  obtain ⟨-, rfl⟩ := quantize_eq_some.1 h
  have hpow : (0 : ℚ) < 10 ^ places := by positivity
  rw [truncate, if_pos (by positivity), lt_div_iff₀ hpow, sub_mul, one_div_mul_cancel hpow.ne']
  exact Int.sub_one_lt_floor _

theorem quantize_nonpos (h : ctx.quantize places q = some r) (hq : q ≤ 0) : r ≤ 0 := by
  obtain ⟨-, rfl⟩ := quantize_eq_some.1 h
  have : truncate (q * 10 ^ places) ≤ 0 :=
    truncate_nonpos (mul_nonpos_of_nonpos_of_nonneg hq (by positivity))
  exact div_nonpos_of_nonpos_of_nonneg (by exact_mod_cast this) (by positivity)

/-- What quantizes does not have more digits than the context keeps. -/
theorem lt_of_quantize_fit {digits : ℕ} (hd : ctx.prec = some digits)
    (h : ctx.quantize places (ctx.fit q) = some r) : |q| < (10 : ℚ) ^ ((digits : ℤ) - places) := by
  by_contra hle
  have hfit := le_abs_fit hd (not_lt.1 hle)
  refine absurd ((quantize_eq_some.1 h).1 digits hd) (not_lt.2 (le_abs_truncate ?_))
  rw [abs_mul, abs_of_pos (by positivity : (0 : ℚ) < 10 ^ places)]
  calc (((10 ^ digits : ℤ)) : ℚ) = 10 ^ ((digits : ℤ) - places) * 10 ^ places := by
        rw [zpow_sub₀ (by norm_num), zpow_natCast, zpow_natCast]
        push_cast
        field_simp
    _ ≤ _ := mul_le_mul_of_nonneg_right hfit (by positivity)

/-- On the grid, the result of an operation is exact if it quantizes. -/
theorem quantize_fit (hq : OnGrid places q) (h : ctx.quantize places (ctx.fit q) = some r) :
    r = q := by
  obtain ⟨n, rfl⟩ := hq
  obtain ⟨-, hr⟩ := quantize_eq_some.1 h
  have hgrid : (n / 10 ^ places * 10 ^ places : ℚ) = n := div_mul_cancel₀ _ (by positivity)
  have hfit : ctx.fit (n / 10 ^ places) = n / 10 ^ places := by
    rcases hp : ctx.prec with _ | digits
    · rw [fit, hp]
    · refine fit_of_lt hp ?_
      have hlt := lt_of_quantize_fit hp h
      rw [abs_div, abs_of_pos (by positivity : (0 : ℚ) < 10 ^ places), zpow_sub₀ (by norm_num),
        zpow_natCast, zpow_natCast, div_lt_div_iff_of_pos_right (by positivity)] at hlt
      exact_mod_cast hlt
  rw [hr, hfit, hgrid, truncate_intCast]

/-- Rounding keeps what is between two places of the grid between them. -/
theorem fit_mem {digits : ℕ} (hd : ctx.prec = some digits) {n : ℤ}
    (hlt : |q| < (10 : ℚ) ^ ((digits : ℤ) - places)) :
    (n / 10 ^ places ≤ q → n / 10 ^ places ≤ ctx.fit q) ∧
      (q ≤ n / 10 ^ places → ctx.fit q ≤ n / 10 ^ places) := by
  rw [fit, hd]
  dsimp only
  split
  · rename_i h
    rw [h]
    exact ⟨id, id⟩
  rename_i hne
  obtain ⟨k, hk⟩ := exists_grid_eq hne hlt
  have hgrid : (n / 10 ^ places : ℚ) = ((n * 10 ^ k : ℤ) : ℚ) * lastPlace digits q := by
    rw [div_eq_mul_one_div, hk]
    push_cast
    ring
  have hpos := lastPlace_pos digits q
  rw [hgrid]
  refine ⟨fun h => ?_, fun h => ?_⟩
  · have := le_roundHalfEven ((le_div_iff₀ hpos).2 h)
    exact mul_le_mul_of_nonneg_right (by exact_mod_cast this) hpos.le
  · have := roundHalfEven_le_of_le ((div_le_iff₀ hpos).2 h)
    exact mul_le_mul_of_nonneg_right (by exact_mod_cast this) hpos.le

/-- An operation and a quantization lose at most one unit of the last place. -/
theorem abs_quantize_fit_sub_le (h : ctx.quantize places (ctx.fit q) = some r) :
    |r - q| ≤ 1 / 10 ^ places := by
  have hpow : (0 : ℚ) < 10 ^ places := by positivity
  -- `n` and `n + 1` steps of the grid enclose `q`: both roundings stay between them.
  set n := ⌊q * 10 ^ places⌋ with hn
  have hl : (n / 10 ^ places : ℚ) ≤ q := (div_le_iff₀ hpow).2 (Int.floor_le _)
  have hr : q ≤ ((n + 1 : ℤ) : ℚ) / 10 ^ places := by
    rw [le_div_iff₀ hpow]
    push_cast
    exact (Int.lt_floor_add_one _).le
  have hfit : (n / 10 ^ places : ℚ) ≤ ctx.fit q ∧
      ctx.fit q ≤ ((n + 1 : ℤ) : ℚ) / 10 ^ places := by
    rcases hp : ctx.prec with _ | digits
    · rw [fit, hp]
      exact ⟨hl, hr⟩
    · have hlt := lt_of_quantize_fit hp h
      exact ⟨(fit_mem hp hlt).1 hl, (fit_mem hp hlt).2 hr⟩
  obtain ⟨-, rfl⟩ := quantize_eq_some.1 h
  obtain ⟨h₁, h₂⟩ := truncate_mem ((div_le_iff₀ hpow).1 hfit.1)
    (by exact_mod_cast (le_div_iff₀ hpow).1 hfit.2)
  have h₁ : (n / 10 ^ places : ℚ) ≤ truncate (ctx.fit q * 10 ^ places) / 10 ^ places := by
    gcongr
  have h₂ : (truncate (ctx.fit q * 10 ^ places) : ℚ) / 10 ^ places ≤
      ((n + 1 : ℤ) : ℚ) / 10 ^ places := by
    gcongr
  have hstep : ((n + 1 : ℤ) : ℚ) / 10 ^ places = n / 10 ^ places + 1 / 10 ^ places := by
    rw [← add_div]
    push_cast
    rfl
  rw [abs_le]
  constructor <;> linarith

/-- Quantized numbers have no more digits than the context keeps, nor do their negations. -/
theorem fit_neg_quantize (h : ctx.quantize places q = some r) : ctx.fit (-r) = -r := by
  obtain ⟨hk, rfl⟩ := quantize_eq_some.1 h
  rcases hp : ctx.prec with _ | digits
  · rw [fit, hp]
  · have hneg : -((truncate (q * 10 ^ places) : ℚ) / 10 ^ places) =
        ((-truncate (q * 10 ^ places) : ℤ) : ℚ) / 10 ^ places := by
      push_cast
      ring
    rw [hneg]
    exact fit_of_lt hp (by rw [abs_neg]; exact hk digits hp)

theorem quantize_self (hq : OnGrid places q) (h : ctx.quantize places q = some r) : r = q := by
  obtain ⟨n, rfl⟩ := hq
  obtain ⟨-, rfl⟩ := quantize_eq_some.1 h
  rw [div_mul_cancel₀ _ (by positivity), truncate_intCast]

end Context

/-! ## The grid -/

namespace OnGrid

variable {places : ℕ} {x y : ℚ}

theorem zero (places : ℕ) : OnGrid places 0 := ⟨0, by simp⟩

theorem add (hx : OnGrid places x) (hy : OnGrid places y) : OnGrid places (x + y) := by
  obtain ⟨n, rfl⟩ := hx
  obtain ⟨m, rfl⟩ := hy
  exact ⟨n + m, by push_cast; ring⟩

theorem neg (hx : OnGrid places x) : OnGrid places (-x) := by
  obtain ⟨n, rfl⟩ := hx
  exact ⟨-n, by push_cast; ring⟩

theorem sub (hx : OnGrid places x) (hy : OnGrid places y) : OnGrid places (x - y) := by
  rw [sub_eq_add_neg]
  exact hx.add hy.neg

theorem max (hx : OnGrid places x) (hy : OnGrid places y) : OnGrid places (max x y) := by
  rcases max_choice x y with h | h <;> rw [h]
  · exact hx
  · exact hy

theorem sum {l : List ℚ} (h : ∀ x ∈ l, OnGrid places x) : OnGrid places l.sum := by
  induction l with
  | nil => exact zero places
  | cons x l ih =>
    rw [List.forall_mem_cons] at h
    rw [List.sum_cons]
    exact h.1.add (ih h.2)

end OnGrid

namespace Context

variable {ctx : Context} {places : ℕ} {x y r : ℚ}

theorem quantize_add (hx : OnGrid places x) (hy : OnGrid places y)
    (h : ctx.quantize places (ctx.add x y) = some r) : r = x + y :=
  quantize_fit (hx.add hy) h

theorem quantize_sub (hx : OnGrid places x) (hy : OnGrid places y)
    (h : ctx.quantize places (ctx.sub x y) = some r) : r = x - y :=
  quantize_fit (hx.sub hy) h

/-! ### Room -/

variable {a b q : ℚ}

theorem room_zero (ctx : Context) (places : ℕ) : ctx.Room places 0 := fun digits _ => by
  simp [truncate]

theorem Room.exists_quantize (h : ctx.Room places q) : ∃ r, ctx.quantize places q = some r :=
  ⟨_, if_pos h⟩

theorem room_intCast_div {n : ℤ} : ctx.Room places (n / 10 ^ places) ↔ ctx.Keeps n := by
  rw [Room, div_mul_cancel₀ _ (by positivity), truncate_intCast]

theorem room_of_quantize (h : ctx.quantize places q = some r) : ctx.Room places r := by
  obtain ⟨hk, rfl⟩ := quantize_eq_some.1 h
  exact room_intCast_div.2 hk

theorem Room.neg (h : ctx.Room places q) (hq : OnGrid places q) : ctx.Room places (-q) := by
  obtain ⟨n, rfl⟩ := hq
  have hn : -((n : ℚ) / 10 ^ places) = ((-n : ℤ) : ℚ) / 10 ^ places := by
    push_cast
    ring
  rw [hn, room_intCast_div]
  intro digits hd
  rw [abs_neg]
  exact room_intCast_div.1 h digits hd

/-- What is between two numbers that there is room for has room. -/
theorem Room.between (ha : ctx.Room places a) (hb : ctx.Room places b) (hl : a ≤ q) (hr : q ≤ b) :
    ctx.Room places q := fun digits hd => by
  have hpow : (0 : ℚ) ≤ 10 ^ places := by positivity
  exact abs_lt.2 ⟨(abs_lt.1 (ha digits hd)).1.trans_le
      (truncate_mono (mul_le_mul_of_nonneg_right hl hpow)),
    (truncate_mono (mul_le_mul_of_nonneg_right hr hpow)).trans_lt (abs_lt.1 (hb digits hd)).2⟩

/-- On the grid, there is room for small numbers only. -/
theorem Room.abs_lt_of_onGrid (h : ctx.Room places q) (hq : OnGrid places q) {digits : ℕ}
    (hd : ctx.prec = some digits) : |q| < (10 : ℚ) ^ ((digits : ℤ) - places) := by
  obtain ⟨n, rfl⟩ := hq
  have hn := room_intCast_div.1 h digits hd
  rw [abs_div, abs_of_pos (by positivity : (0 : ℚ) < 10 ^ places), zpow_sub₀ (by norm_num),
    zpow_natCast, zpow_natCast, div_lt_div_iff_of_pos_right (by positivity)]
  exact_mod_cast hn

/-- On the grid, an operation on whose result there is room is exact. -/
theorem fit_of_room (hq : OnGrid places q) (h : ctx.Room places q) : ctx.fit q = q := by
  obtain ⟨n, rfl⟩ := hq
  rcases hp : ctx.prec with _ | digits
  · rw [fit, hp]
  · exact fit_of_lt hp (room_intCast_div.1 h digits hp)

theorem quantize_of_room (hq : OnGrid places q) (h : ctx.Room places q) :
    ctx.quantize places q = some q := by
  obtain ⟨r, hr⟩ := h.exists_quantize
  rw [hr, quantize_self hq hr]

/-- Rounding stays between two numbers of the grid that there is room for. -/
theorem room_fit_between (hga : OnGrid places a) (hgb : OnGrid places b) (ha : ctx.Room places a)
    (hb : ctx.Room places b) (hl : a ≤ q) (hr : q ≤ b) : ctx.Room places (ctx.fit q) := by
  rcases hp : ctx.prec with _ | digits
  · exact fun digits hd => absurd (hp.symm.trans hd) nofun
  · have hlt : |q| < (10 : ℚ) ^ ((digits : ℤ) - places) :=
      abs_lt.2 ⟨(abs_lt.1 (ha.abs_lt_of_onGrid hga hp)).1.trans_le hl,
        hr.trans_lt (abs_lt.1 (hb.abs_lt_of_onGrid hgb hp)).2⟩
    obtain ⟨n, rfl⟩ := hga
    obtain ⟨m, rfl⟩ := hgb
    exact ha.between hb ((fit_mem hp hlt).1 hl) ((fit_mem hp hlt).2 hr)

/-! ### Sums -/

theorem abs_truncate_le (q : ℚ) : |(truncate q : ℚ)| ≤ |q| := by
  rcases le_total 0 q with h | h
  · rw [abs_of_nonneg h, abs_of_nonneg (by exact_mod_cast truncate_nonneg h)]
    exact truncate_le h
  · rw [abs_of_nonpos h, abs_of_nonpos (by exact_mod_cast truncate_nonpos h), neg_le_neg_iff]
    rw [truncate]
    split
    · rename_i hq
      rw [le_antisymm h hq, Int.floor_zero, Int.cast_zero]
    · exact Int.le_ceil q

theorem abs_quantize_le (h : ctx.quantize places q = some r) : |r| ≤ |q| := by
  obtain ⟨-, rfl⟩ := quantize_eq_some.1 h
  have hpow : (0 : ℚ) < 10 ^ places := by positivity
  have htruncate := abs_truncate_le (q * 10 ^ places)
  rw [abs_mul, abs_of_pos hpow] at htruncate
  rw [abs_div, abs_of_pos hpow, div_le_iff₀ hpow]
  exact htruncate

/-- There is room for small numbers only. -/
theorem room_iff : ctx.Room places q ↔
    ∀ digits, ctx.prec = some digits → |q| < (10 : ℚ) ^ ((digits : ℤ) - places) := by
  have hpow : (0 : ℚ) < 10 ^ places := by positivity
  have hmul : |q * 10 ^ places| = |q| * 10 ^ places := by rw [abs_mul, abs_of_pos hpow]
  have hiff : ∀ digits : ℕ, |truncate (q * 10 ^ places)| < 10 ^ digits ↔
      |q| < (10 : ℚ) ^ ((digits : ℤ) - places) := by
    intro digits
    rw [zpow_sub₀ (by norm_num), zpow_natCast, zpow_natCast, lt_div_iff₀ hpow, ← hmul]
    constructor
    · intro h
      by_contra hle
      have : ((10 ^ digits : ℤ) : ℚ) ≤ |q * 10 ^ places| := by
        push_cast
        exact not_lt.1 hle
      exact absurd h (not_lt.2 (le_abs_truncate this))
    · intro h
      exact_mod_cast (abs_truncate_le (q * 10 ^ places)).trans_lt h
  exact forall_congr' fun digits => imp_congr_right fun _ => hiff digits

theorem Room.mono (h : ctx.Room places q) (hle : |x| ≤ |q|) : ctx.Room places x :=
  room_iff.2 fun digits hd => hle.trans_lt (room_iff.1 h digits hd)

theorem room_of_fit (h : ctx.Room places (ctx.fit q)) : ctx.Room places q :=
  room_iff.2 fun digits hd =>
    not_le.1 fun hle => (le_abs_fit hd hle).not_gt (room_iff.1 h digits hd)

theorem sum_concat (ctx : Context) (l : List ℚ) (x : ℚ) :
    ctx.sum (l ++ [x]) = ctx.fit (ctx.sum l + x) := by
  rw [sum, List.foldl_append]
  rfl

theorem sum_nonneg {l : List ℚ} (h : ∀ x ∈ l, 0 ≤ x) : 0 ≤ ctx.sum l := by
  induction l using List.reverseRecOn with
  | nil => exact le_rfl
  | append_singleton l x ih =>
    rw [sum_concat]
    exact fit_nonneg (add_nonneg (ih fun y hy => h y (by simp [hy])) (h x (by simp)))

theorem sum_nonpos {l : List ℚ} (h : ∀ x ∈ l, x ≤ 0) : ctx.sum l ≤ 0 := by
  induction l using List.reverseRecOn with
  | nil => exact le_rfl
  | append_singleton l x ih =>
    rw [sum_concat]
    exact fit_nonpos (add_nonpos (ih fun y hy => h y (by simp [hy])) (h x (by simp)))

/-- Where all numbers have one sign, the sum is exact if there is room for it: there was room for
    what came before, too. -/
theorem sum_of_room {l : List ℚ} (hgrid : ∀ x ∈ l, OnGrid places x)
    (hsign : (∀ x ∈ l, 0 ≤ x) ∨ ∀ x ∈ l, x ≤ 0) (h : ctx.Room places (ctx.sum l)) :
    ctx.sum l = l.sum := by
  induction l using List.reverseRecOn with
  | nil => rfl
  | append_singleton l x ih =>
    simp only [List.mem_append, List.mem_singleton, or_imp, forall_and, forall_eq] at hgrid hsign
    rw [sum_concat] at h ⊢
    have hroom := room_of_fit h
    have habs : |ctx.sum l| ≤ |ctx.sum l + x| := by
      rcases hsign with ⟨hl, hx⟩ | ⟨hl, hx⟩
      · have : 0 ≤ ctx.sum l := sum_nonneg hl
        rw [abs_of_nonneg this, abs_of_nonneg (add_nonneg this hx)]
        linarith
      · have : ctx.sum l ≤ 0 := sum_nonpos hl
        rw [abs_of_nonpos this, abs_of_nonpos (add_nonpos this hx)]
        linarith
    have hsum := ih hgrid.1 (hsign.imp And.left And.left) (hroom.mono habs)
    rw [hsum] at hroom ⊢
    rw [fit_of_room ((OnGrid.sum hgrid.1).add hgrid.2) hroom, List.sum_append, List.sum_singleton]

/-- A sum is what its positive numbers and what its negative numbers add up to. -/
theorem sum_eq_parts (l : List ℚ) : l.sum = (l.filter (0 < ·)).sum + (l.filter (· < 0)).sum := by
  induction l with
  | nil => simp
  | cons y l ih =>
    rcases lt_trichotomy y 0 with hy | rfl | hy
    · simp [hy, hy.not_gt, ih]
      ring
    · simp [ih]
    · simp [hy, hy.not_gt, ih]
      ring

/-- The sum is exact if there is room for what the positive numbers and what the negative numbers
    add up to. -/
theorem sum_of_room_parts {l : List ℚ} (hgrid : ∀ x ∈ l, OnGrid places x)
    (hpos : ctx.Room places (l.filter (0 < ·)).sum)
    (hneg : ctx.Room places (l.filter (· < 0)).sum) : ctx.sum l = l.sum := by
  induction l using List.reverseRecOn with
  | nil => rfl
  | append_singleton l x ih =>
    simp only [List.mem_append, List.mem_singleton, or_imp, forall_and, forall_eq] at hgrid
    have hpos₀ : ∀ l : List ℚ, 0 ≤ (l.filter (0 < ·)).sum := fun l =>
      List.sum_nonneg fun y hy => (of_decide_eq_true (List.mem_filter.1 hy).2).le
    have hneg₀ : ∀ l : List ℚ, (l.filter (· < 0)).sum ≤ 0 := fun l => by
      rw [← neg_nonneg, List.sum_neg]
      refine List.sum_nonneg fun z hz => ?_
      obtain ⟨y, hy, rfl⟩ := List.mem_map.1 hz
      exact neg_nonneg.2 (of_decide_eq_true (List.mem_filter.1 hy).2).le
    have hposl : (l.filter (0 < ·)).sum ≤ ((l ++ [x]).filter (0 < ·)).sum := by
      rw [List.filter_append, List.sum_append]
      exact le_add_of_nonneg_right (hpos₀ [x])
    have hnegl : ((l ++ [x]).filter (· < 0)).sum ≤ (l.filter (· < 0)).sum := by
      rw [List.filter_append, List.sum_append]
      exact add_le_of_nonpos_right (hneg₀ [x])
    -- Every partial sum lies between the sum of the losses and the sum of the gains.
    have hsum := ih hgrid.1 (hpos.mono (abs_le_abs_of_nonneg (hpos₀ l) hposl))
      (hneg.mono (abs_le_abs_of_nonpos (hneg₀ l) hnegl))
    have hroom : ctx.Room places (l ++ [x]).sum := by
      refine hneg.between hpos ?_ ?_
      · rw [sum_eq_parts (l ++ [x])]
        exact le_add_of_nonneg_left (hpos₀ _)
      · rw [sum_eq_parts (l ++ [x])]
        exact add_le_of_nonpos_right (hneg₀ _)
    rw [List.sum_append, List.sum_singleton] at hroom ⊢
    rw [sum_concat, hsum, fit_of_room ((OnGrid.sum hgrid.1).add hgrid.2) hroom]

/-! ### Order -/

theorem roundHalfEven_mono {x y : ℚ} (h : x ≤ y) : roundHalfEven x ≤ roundHalfEven y := by
  rcases (Int.floor_mono h).lt_or_eq with hlt | heq
  · calc roundHalfEven x ≤ ⌈x⌉ := roundHalfEven_le x
      _ ≤ ⌊x⌋ + 1 := Int.ceil_le_floor_add_one x
      _ ≤ ⌊y⌋ := hlt
      _ ≤ roundHalfEven y := floor_le_roundHalfEven y
  · have hfract : Int.fract x ≤ Int.fract y := by
      rw [Int.fract, Int.fract, heq]
      linarith
    rw [roundHalfEven, roundHalfEven, heq]
    split_ifs <;> first | omega | linarith

theorem roundHalfEven_neg (q : ℚ) : roundHalfEven (-q) = -roundHalfEven q := by
  by_cases hq : Int.fract q = 0
  · obtain ⟨n, rfl⟩ : ∃ n : ℤ, q = n := ⟨⌊q⌋, by linarith [Int.floor_add_fract q]⟩
    rw [← Int.cast_neg, roundHalfEven_intCast, roundHalfEven_intCast]
  · have hfract : Int.fract (-q) = 1 - Int.fract q := Int.fract_neg hq
    have hfloor : ⌊-q⌋ = -⌊q⌋ - 1 := by
      have h₁ := Int.floor_add_fract q
      have h₂ := Int.floor_add_fract (-q)
      rw [hfract] at h₂
      have : (⌊-q⌋ : ℚ) = ((-⌊q⌋ - 1 : ℤ) : ℚ) := by
        push_cast
        linarith
      exact_mod_cast this
    rw [roundHalfEven, roundHalfEven, hfract, hfloor]
    split_ifs <;> first | omega | linarith

theorem fit_neg (q : ℚ) : ctx.fit (-q) = -ctx.fit q := by
  rcases hp : ctx.prec with _ | digits
  · simp only [fit, hp]
  · have hplace : lastPlace digits (-q) = lastPlace digits q := by rw [lastPlace, abs_neg, lastPlace]
    simp only [fit, hp, neg_eq_zero, hplace, neg_div, roundHalfEven_neg]
    split
    · exact neg_zero.symm
    · push_cast
      ring

/-- Positive numbers round in their order: at most up to the next power of ten. -/
theorem fit_mono_of_pos {x y : ℚ} (hx : 0 < x) (h : x ≤ y) : ctx.fit x ≤ ctx.fit y := by
  have hy : 0 < y := hx.trans_le h
  rcases hp : ctx.prec with _ | digits
  · simpa only [fit, hp] using h
  rcases (Int.log_mono_right hx h : Int.log 10 x ≤ Int.log 10 y).lt_or_eq with hlt | heq
  · -- a power of ten is between the two
    have hup : ctx.fit x ≤ 10 ^ (Int.log 10 x + 1) := by
      have hplace : (10 : ℚ) ^ (Int.log 10 x + 1) = 10 ^ digits * lastPlace digits x := by
        rw [lastPlace, abs_of_pos hx, ← zpow_natCast, ← zpow_add₀ (by norm_num)]
        congr 1
        ring
      simp only [fit, hp, if_neg hx.ne']
      rw [hplace]
      refine mul_le_mul_of_nonneg_right ?_ (lastPlace_pos _ _).le
      have : roundHalfEven (x / lastPlace digits x) ≤ 10 ^ digits := by
        refine roundHalfEven_le_of_le ?_
        push_cast
        rw [div_le_iff₀ (lastPlace_pos _ _), ← hplace]
        exact_mod_cast (Int.lt_zpow_succ_log_self (b := 10) (by norm_num) x).le
      exact_mod_cast this
    have hlow : (10 : ℚ) ^ Int.log 10 y ≤ ctx.fit y := by
      have := le_abs_fit (k := Int.log 10 y) hp (q := y) (by
        rw [abs_of_pos hy]
        exact_mod_cast Int.zpow_log_le_self (b := 10) (by norm_num) hy)
      rwa [abs_of_pos (fit_pos hy)] at this
    calc ctx.fit x ≤ 10 ^ (Int.log 10 x + 1) := hup
      _ ≤ 10 ^ Int.log 10 y := zpow_le_zpow_right₀ (by norm_num) hlt
      _ ≤ ctx.fit y := hlow
  · have hplace : lastPlace digits x = lastPlace digits y := by
      rw [lastPlace, lastPlace, abs_of_pos hx, abs_of_pos hy, heq]
    simp only [fit, hp, if_neg hx.ne', if_neg hy.ne', hplace]
    have := roundHalfEven_mono (div_le_div_of_nonneg_right h (lastPlace_pos digits y).le)
    exact mul_le_mul_of_nonneg_right (by exact_mod_cast this) (lastPlace_pos _ _).le

/-- Rounding keeps the order. -/
theorem fit_mono {x y : ℚ} (h : x ≤ y) : ctx.fit x ≤ ctx.fit y := by
  rcases lt_or_ge 0 x with hx | hx
  · exact fit_mono_of_pos hx h
  rcases lt_or_ge y 0 with hy | hy
  · have : ctx.fit (-y) ≤ ctx.fit (-x) := fit_mono_of_pos (neg_pos.2 hy) (neg_le_neg h)
    rwa [fit_neg, fit_neg, neg_le_neg_iff] at this
  · exact (fit_nonpos hx).trans (fit_nonneg hy)

theorem quantize_mono {x y r s : ℚ} (hx : ctx.quantize places x = some r)
    (hy : ctx.quantize places y = some s) (h : x ≤ y) : r ≤ s := by
  obtain ⟨-, rfl⟩ := quantize_eq_some.1 hx
  obtain ⟨-, rfl⟩ := quantize_eq_some.1 hy
  have hpow : (0 : ℚ) < 10 ^ places := by positivity
  have := truncate_mono (mul_le_mul_of_nonneg_right h hpow.le)
  exact div_le_div_of_nonneg_right (by exact_mod_cast this) hpow.le

/-! ### Errors -/

theorem abs_roundHalfEven_sub_le (q : ℚ) : |roundHalfEven q - q| ≤ 1 / 2 := by
  have hle := roundHalfEven_le_add_half q
  have hge := roundHalfEven_le_add_half (-q)
  rw [roundHalfEven_neg, Int.cast_neg] at hge
  exact abs_le.2 ⟨by linarith, by linarith⟩

/-- An operation is off by less than a unit of its last digit. -/
theorem abs_fit_sub_le {digits : ℕ} (hd : ctx.prec = some digits) (q : ℚ) :
    |ctx.fit q - q| ≤ |q| / 10 ^ (digits - 1) := by
  rw [fit, hd]
  dsimp only
  split
  · rename_i hzero
    rw [hzero]
    simp
  rename_i hne
  have hplace := lastPlace_pos digits q
  have hdigits := le_div_lastPlace (ctx.pos digits hd) hne
  rw [le_div_iff₀ hplace] at hdigits
  have hround := abs_roundHalfEven_sub_le (q / lastPlace digits q)
  calc |roundHalfEven (q / lastPlace digits q) * lastPlace digits q - q|
      = |roundHalfEven (q / lastPlace digits q) - q / lastPlace digits q| * lastPlace digits q := by
        rw [← abs_of_pos hplace, ← abs_mul, abs_of_pos hplace, sub_mul,
          div_mul_cancel₀ _ hplace.ne']
    _ ≤ 1 / 2 * lastPlace digits q := mul_le_mul_of_nonneg_right hround hplace.le
    _ ≤ |q| / 10 ^ (digits - 1) := by
      rw [le_div_iff₀ (by positivity)]
      have hpos : 0 ≤ 10 ^ (digits - 1) * lastPlace digits q := by positivity
      linarith

theorem abs_default_fit_sub_le (q : ℚ) : |Context.default.fit q - q| ≤ |q| / 10 ^ 27 := by
  have h := @abs_fit_sub_le .default 28 rfl q
  rwa [show 28 - 1 = 27 from rfl] at h

/-- The default context keeps so many digits that an operation adds less than a thousandth. -/
theorem abs_default_fit_le (q : ℚ) : |Context.default.fit q| ≤ 1001 / 1000 * |q| := by
  have herror := abs_default_fit_sub_le q
  have hsmall : |q| / 10 ^ 27 ≤ 1 / 1000 * |q| := by
    rw [div_le_iff₀ (by positivity)]
    nlinarith [abs_nonneg q]
  calc |Context.default.fit q| ≤ |q| + |Context.default.fit q - q| := by
        have := abs_add_le q (Context.default.fit q - q)
        rwa [add_sub_cancel] at this
    _ ≤ 1001 / 1000 * |q| := by linarith

end Context

end IntradayBot.Decimal
