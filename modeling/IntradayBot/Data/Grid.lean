import Mathlib.Data.List.Nodup
import Mathlib.Data.List.Perm.Subperm
import Mathlib.Data.List.Sort
import Mathlib.Tactic.Linarith
import Mathlib.Tactic.Positivity
import Mathlib.Tactic.Ring

/-!
# Evenly spaced times

`grid first step n` are `n` times, each a `step` after the one before. A sorted list with as
many times that has all of them is the grid (`eq_grid`), and the times between two of a grid
are a slice of it (`filter_between_grid`).
-/

namespace IntradayBot

variable {α : Type}

/-- The times `first`, `first + step`, …, of which there are `n`. -/
def grid (first step : ℤ) (n : ℕ) : List ℤ := (List.range n).map fun i : ℕ => first + i * step

@[simp] theorem length_grid (first step : ℤ) (n : ℕ) : (grid first step n).length = n := by
  simp [grid]

theorem grid_add (first step : ℤ) (m n : ℕ) :
    grid first step (m + n) = grid first step m ++ grid (first + m * step) step n := by
  simp only [grid, List.range_add, List.map_append, List.map_map, Function.comp_def]
  congr 1
  refine List.map_congr_left fun i _ => ?_
  push_cast
  ring

theorem mem_grid {first step t : ℤ} {n : ℕ} :
    t ∈ grid first step n ↔ ∃ i < n, first + (i : ℕ) * step = t := by
  simp [grid]

/-- The times of a grid are the multiples of its step from its first time on. -/
theorem mem_grid_iff {first step t : ℤ} {n : ℕ} (h : 0 < step) (hfirst : step ∣ first) :
    t ∈ grid first step n ↔ step ∣ t ∧ first ≤ t ∧ t ≤ first + (n - 1) * step := by
  obtain ⟨m, rfl⟩ := hfirst
  rw [mem_grid]
  constructor
  · rintro ⟨i, hi, rfl⟩
    refine ⟨(dvd_mul_right _ _).add (dvd_mul_left _ _), ?_, ?_⟩
    · have : 0 ≤ (i : ℤ) * step := by positivity
      linarith
    · have : (i : ℤ) * step ≤ (n - 1) * step := mul_le_mul_of_nonneg_right (by omega) h.le
      linarith
  · rintro ⟨⟨k, rfl⟩, hle, hlt⟩
    have hmk : m ≤ k := le_of_mul_le_mul_left hle h
    have hkn : k ≤ m + (n - 1) := by
      refine le_of_mul_le_mul_left ?_ h
      linarith
    refine ⟨(k - m).toNat, by omega, ?_⟩
    rw [Int.toNat_of_nonneg (by omega)]
    ring

/-- A slice of a grid is a grid. -/
theorem take_drop_grid (first step : ℤ) {n k c : ℕ} (h : k + c ≤ n) :
    ((grid first step n).drop k).take c = grid (first + k * step) step c := by
  obtain ⟨rest, rfl⟩ := Nat.exists_eq_add_of_le h
  rw [add_assoc, grid_add, grid_add, List.drop_left' (length_grid ..),
    List.take_left' (length_grid ..)]

theorem pairwise_grid {first step : ℤ} (h : 0 < step) (n : ℕ) :
    (grid first step n).Pairwise (· < ·) := by
  rw [grid, List.pairwise_map]
  refine List.pairwise_lt_range.imp fun {i j} hij => ?_
  have : (i : ℤ) < j := by exact_mod_cast hij
  nlinarith

/-- A sorted list of so many times, with all of the grid, is the grid. -/
theorem eq_grid {first step : ℤ} {n : ℕ} (h : 0 < step) {l : List ℤ} (hl : l.Pairwise (· < ·))
    (hsub : grid first step n ⊆ l) (hlen : l.length = n) : l = grid first step n := by
  have hgrid : (grid first step n).Pairwise (· < ·) := pairwise_grid h n
  have hperm : (grid first step n).Perm l :=
    (List.subperm_of_subset (hgrid.imp ne_of_lt) hsub).perm_of_length_le (by simp [hlen])
  exact (hperm.eq_of_pairwise (fun a b _ _ hab hba => absurd hba hab.not_gt) hgrid hl).symm

/-- Between two multiples of a step there is one step at least. -/
theorem lt_iff_le_sub {step a b : ℤ} (h : 0 < step) (ha : step ∣ a) (hb : step ∣ b) :
    a < b ↔ a ≤ b - step := by
  obtain ⟨m, rfl⟩ := ha
  obtain ⟨n, rfl⟩ := hb
  rw [show step * n - step = step * (n - 1) by ring, mul_lt_mul_iff_right₀ h,
    mul_le_mul_iff_right₀ h]
  omega

/-- The member of a list with a key that no other one has. -/
theorem find?_key_eq_some {β : Type} [DecidableEq β] {f : α → β} {l : List α}
    (hnodup : (l.map f).Nodup) {key : β} {a : α} :
    l.find? (fun a => f a = key) = some a ↔ a ∈ l ∧ f a = key := by
  refine ⟨fun h => ⟨List.mem_of_find?_eq_some h, by simpa using List.find?_some h⟩, ?_⟩
  rintro ⟨ha, rfl⟩
  have hsome : (l.find? fun b => f b = f a).isSome := by
    rw [List.find?_isSome]
    exact ⟨a, ha, by simp⟩
  obtain ⟨b, hb⟩ := Option.isSome_iff_exists.1 hsome
  have hkey : f b = f a := by simpa using List.find?_some hb
  rw [hb, List.inj_on_of_nodup_map hnodup (List.mem_of_find?_eq_some hb) ha hkey]

/-- The members of a list in a range of places are a slice of it. -/
theorem filter_eq_slice {p : α → Bool} {l : List α} {k c : ℕ}
    (h : ∀ i (hi : i < l.length), p l[i] = true ↔ k ≤ i ∧ i < k + c) :
    l.filter p = (l.drop k).take c := by
  induction l generalizing k c with
  | nil => simp
  | cons a l ih =>
    have head : p a = true ↔ k ≤ 0 ∧ 0 < k + c := h 0 (by simp)
    have tail : ∀ i (hi : i < l.length), p l[i] = true ↔ k ≤ i + 1 ∧ i + 1 < k + c :=
      fun i hi => h (i + 1) (by simpa using hi)
    rcases k with _ | k
    · rcases c with _ | c
      · -- nothing is in the range
        rw [List.filter_cons_of_neg (by simpa using head),
          ih (k := 0) (c := 0) fun i hi => by simpa using tail i hi]
        simp
      · rw [List.filter_cons_of_pos (head.2 (by omega)),
          ih (k := 0) (c := c) fun i hi => (tail i hi).trans (by omega)]
        simp
    · rw [List.filter_cons_of_neg (by simpa using head),
        ih (k := k) (c := c) fun i hi => (tail i hi).trans (by omega)]
      simp

section

variable {f : α → ℤ} {l : List α} {first step : ℤ} {n : ℕ}

theorem getElem_of_grid (hl : l.map f = grid first step n) {i : ℕ} (hi : i < l.length) :
    f l[i] = first + i * step := by
  have hi' : i < (l.map f).length := by simpa using hi
  have : (l.map f)[i] = first + i * step := by
    simp only [hl, grid, List.getElem_map, List.getElem_range]
  simpa using this

theorem grid_le_iff (h : 0 < step) {i j : ℕ} : first + i * step ≤ first + j * step ↔ i ≤ j := by
  rw [add_le_add_iff_left, mul_le_mul_iff_left₀ h, Nat.cast_le]

/-- What is between two times of the grid is a slice. -/
theorem filter_between_grid (h : 0 < step) (hl : l.map f = grid first step n) {k c : ℕ}
    (hc : 0 < c) : l.filter (fun a => first + k * step ≤ f a ∧
      f a ≤ first + k * step + (c - 1) * step) = (l.drop k).take c := by
  refine filter_eq_slice fun i hi => ?_
  have hlast : first + k * step + (c - 1) * step = first + (k + c - 1 : ℕ) * step := by
    rw [Nat.cast_sub (by omega)]
    push_cast
    ring
  rw [decide_eq_true_iff, getElem_of_grid hl hi, hlast, grid_le_iff h, grid_le_iff h]
  omega

/-- What is up to a time of the grid is a prefix. -/
theorem filter_le_grid (h : 0 < step) (hl : l.map f = grid first step n) {k : ℕ} :
    l.filter (fun a => f a ≤ first + k * step) = l.take (k + 1) := by
  have := filter_eq_slice (p := fun a => f a ≤ first + k * step) (l := l) (k := 0) (c := k + 1)
    fun i hi => by
      rw [decide_eq_true_iff, getElem_of_grid hl hi, grid_le_iff h]
      omega
  simpa using this

end

end IntradayBot
