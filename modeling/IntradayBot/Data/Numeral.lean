import Mathlib.Algebra.Order.Field.Basic
import Mathlib.Data.Nat.Digits.Defs
import Mathlib.Data.Rat.Lemmas
import Mathlib.Tactic.FieldSimp
import Mathlib.Tactic.Positivity
import Mathlib.Tactic.Ring

/-!
# Numerals

A decimal numeral is a sign, the digits before the point and those after it; the point may be
missing, and one of the two parts may be empty. It has a text (`Numeral.text`) and a value
(`Numeral.value`).

At a scale, the value of a numeral that has no more decimals is an integer, whose digits are those
of the numeral and zeros (`scaled_value`).
-/

namespace IntradayBot

/-- The number that a list of decimal digits writes, the highest digit first. -/
def ofDigits (l : List (Fin 10)) : ℕ := Nat.ofDigits 10 (l.map Fin.val).reverse

theorem ofDigits_append (l m : List (Fin 10)) :
    ofDigits (l ++ m) = ofDigits l * 10 ^ m.length + ofDigits m := by
  rw [ofDigits, List.map_append, List.reverse_append, Nat.ofDigits_append, List.length_reverse,
    List.length_map, add_comm, mul_comm]
  rfl

theorem ofDigits_replicate_zero (k : ℕ) : ofDigits (List.replicate k 0) = 0 := by
  rw [ofDigits, List.map_replicate, List.reverse_replicate]
  exact Nat.ofDigits_replicate_zero

theorem ofDigits_cons (d : Fin 10) (l : List (Fin 10)) :
    ofDigits (d :: l) = d * 10 ^ l.length + ofDigits l := by
  have hone : ofDigits [d] = d := by simp [ofDigits]
  rw [← List.singleton_append, ofDigits_append, hone]

/-- The digit zero. -/
def zeroDigit : Fin 10 := 0

/-- The character of a digit. -/
def digitChar (d : Fin 10) : Char := Nat.digitChar d

theorem isDigit_digitChar : ∀ d, (digitChar d).isDigit := by decide

theorem digitChar_toNat : ∀ d, (digitChar d).toNat = 48 + d := by decide

theorem digitChar_eq_zero : ∀ d, digitChar d = '0' → d = 0 := by decide

theorem isDigit_of_mem_map {l : List (Fin 10)} : ∀ c ∈ l.map digitChar, c.isDigit := by
  intro c hc
  obtain ⟨d, -, rfl⟩ := List.mem_map.1 hc
  exact isDigit_digitChar d

theorem exists_digitChar {c : Char} (h : c.isDigit) : ∃ d, digitChar d = c := by
  obtain ⟨hl, hr⟩ : 48 ≤ c.toNat ∧ c.toNat ≤ 57 := Char.isDigit_iff_toNat.1 h
  refine ⟨⟨c.toNat - 48, by omega⟩, Char.toNat_inj.1 ?_⟩
  rw [digitChar_toNat]
  exact Nat.add_sub_cancel' hl

/-- The digits of a text of digits. -/
theorem exists_digits {l : List Char} (h : ∀ c ∈ l, c.isDigit) :
    ∃ m : List (Fin 10), m.map digitChar = l := by
  induction l with
  | nil => exact ⟨[], rfl⟩
  | cons c l ih =>
    obtain ⟨d, rfl⟩ := exists_digitChar (h c List.mem_cons_self)
    obtain ⟨m, rfl⟩ := ih fun c hc => h c (List.mem_cons_of_mem _ hc)
    exact ⟨d :: m, rfl⟩

/-- The sign of a numeral. -/
inductive Sign
  | none
  | plus
  | minus
  deriving DecidableEq, Repr

/-- The text of a sign. -/
def Sign.text : Sign → List Char
  | none => []
  | plus => ['+']
  | minus => ['-']

/-- The factor of a sign. -/
def Sign.factor : Sign → ℤ
  | none | plus => 1
  | minus => -1

/-- A decimal numeral; `fraction` is missing where there is no point. -/
structure Numeral where
  sign : Sign
  whole : List (Fin 10)
  fraction : Option (List (Fin 10))
  digits : whole ++ fraction.getD [] ≠ []

namespace Numeral

variable (n : Numeral)

/-- The decimals. -/
def decimals : List (Fin 10) := n.fraction.getD []

/-- The text without the sign. -/
def unsignedText : List Char :=
  n.whole.map digitChar ++ n.fraction.elim [] fun l => '.' :: l.map digitChar

/-- The text. -/
def text : List Char := n.sign.text ++ n.unsignedText

/-- The number that the numeral denotes. -/
def value : ℚ :=
  n.sign.factor * (ofDigits n.whole + ofDigits n.decimals / 10 ^ n.decimals.length)

/-- The value at a scale. -/
def scaled (scale : ℕ) : ℤ :=
  n.sign.factor *
    ofDigits (n.whole ++ (n.decimals ++ List.replicate (scale - n.decimals.length) 0))

variable {n} {m : Numeral} {scale : ℕ}

theorem scaled_value (h : n.decimals.length ≤ scale) :
    (n.scaled scale : ℚ) = n.value * 10 ^ scale := by
  obtain ⟨k, rfl⟩ := Nat.exists_eq_add_of_le h
  have hlen : (n.decimals ++ List.replicate k 0).length = n.decimals.length + k := by simp
  rw [scaled, value, Nat.add_sub_cancel_left, ofDigits_append, ofDigits_append,
    ofDigits_replicate_zero, hlen, List.length_replicate]
  push_cast
  field_simp
  ring

theorem scaled_le_iff (hn : n.decimals.length ≤ scale) (hm : m.decimals.length ≤ scale) :
    n.scaled scale ≤ m.scaled scale ↔ n.value ≤ m.value := by
  rw [← Int.cast_le (R := ℚ), scaled_value hn, scaled_value hm,
    mul_le_mul_iff_left₀ (by positivity)]

theorem scaled_pos_iff (hn : n.decimals.length ≤ scale) : 0 < n.scaled scale ↔ 0 < n.value := by
  rw [← Int.cast_pos (R := ℚ), scaled_value hn, mul_pos_iff_of_pos_right (by positivity)]

/-- At a common scale, one value divides another if it does so as an integer. -/
theorem scaled_dvd_iff (hn : n.decimals.length ≤ scale) (hm : m.decimals.length ≤ scale) :
    m.scaled scale ∣ n.scaled scale ↔ ∃ k : ℤ, n.value = k * m.value := by
  have hpow : (10 : ℚ) ^ scale ≠ 0 := by positivity
  refine exists_congr fun k => ?_
  have hmul : m.value * 10 ^ scale * k = k * m.value * 10 ^ scale := by ring
  rw [← Int.cast_inj (α := ℚ), Int.cast_mul, scaled_value hn, scaled_value hm, hmul,
    mul_left_inj' hpow]

end Numeral

end IntradayBot
