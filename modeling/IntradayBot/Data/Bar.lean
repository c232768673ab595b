import Mathlib.Topology.Order.IntermediateValue
import Mathlib.Topology.Algebra.Order.LiminfLimsup
import Mathlib.Topology.Instances.Real.Lemmas

/-!
# Bars and the paths of a price

A bar is what is known of the path of a price over some time: where it starts and ends, its highest
and its lowest price (`Bar.IsPath`). Two orders wait at levels on either side of a price, and the
first one that the path reaches fills, at its level, or at the start of the bar if the price is
already past it (`Fills`).

Of the order in which a bar reaches both levels nothing is known. To suppose that the lower one
comes first never does better than the path itself (`exit_le_of_fills`).
-/

namespace IntradayBot

open Set

/-- The prices of a path: its first and last one, the highest and the lowest. -/
structure Bar (α : Type*) where
  open_ : α
  high : α
  low : α
  close : α

namespace Bar

/-- The bar of the path with all prices negated. -/
def neg {α : Type*} [Neg α] (b : Bar α) : Bar α where
  open_ := -b.open_
  high := -b.low
  low := -b.high
  close := -b.close

/-- The bar with all prices mapped. -/
def map {α β : Type*} (f : α → β) (b : Bar α) : Bar β where
  open_ := f b.open_
  high := f b.high
  low := f b.low
  close := f b.close

/-- The path goes from the first price of the bar to its last, and stays between the lowest and the
    highest. -/
structure Within (b : Bar ℝ) (p : ℝ → ℝ) : Prop where
  continuousOn : ContinuousOn p (Icc 0 1)
  start : p 0 = b.open_
  finish : p 1 = b.close
  mem : ∀ t ∈ Icc (0 : ℝ) 1, p t ∈ Icc b.low b.high

/-- The path is one of those that the bar is of: it also reaches the lowest and the highest price. -/
structure IsPath (b : Bar ℝ) (p : ℝ → ℝ) : Prop extends b.Within p where
  low : ∃ t ∈ Icc (0 : ℝ) 1, p t = b.low
  high : ∃ t ∈ Icc (0 : ℝ) 1, p t = b.high

theorem IsPath.neg {b : Bar ℝ} {p : ℝ → ℝ} (h : b.IsPath p) : b.neg.IsPath fun t => -p t where
  continuousOn := h.continuousOn.neg
  start := congrArg _ h.start
  finish := congrArg _ h.finish
  mem t ht := ⟨neg_le_neg (h.mem t ht).2, neg_le_neg (h.mem t ht).1⟩
  low := by
    obtain ⟨t, ht, heq⟩ := h.high
    exact ⟨t, ht, congrArg _ heq⟩
  high := by
    obtain ⟨t, ht, heq⟩ := h.low
    exact ⟨t, ht, congrArg _ heq⟩

/-- Where the order at the lower level `stop` fills, which is supposed to come first, and else the
    one at the level `target`. -/
def exit {α : Type*} [LinearOrder α] (b : Bar α) (stop target : α) : Option α :=
  if b.low ≤ stop then some (min b.open_ stop) else if target ≤ b.high then some target else none

theorem exit_map {α β : Type*} [LinearOrder α] [LinearOrder β] {f : α → β} (hf : StrictMono f)
    (b : Bar α) (stop target : α) :
    (b.map f).exit (f stop) (f target) = (b.exit stop target).map f := by
  simp only [exit, map, hf.le_iff_le]
  split
  · rw [Option.map_some, hf.monotone.map_min]
  split
  · rfl
  · rfl

end Bar

/-! ## Fills -/

/-- The path fills one of two orders at the price. -/
inductive Fills (stop target : ℝ) (p : ℝ → ℝ) : ℝ → Prop
  /-- The price starts at or past a level. -/
  | gap : p 0 ∉ uIoo stop target → Fills stop target p (p 0)
  /-- The price starts between the levels, and `t` is the first time that it is at one of them. -/
  | touch {t : ℝ} : p 0 ∈ uIoo stop target →
      IsLeast {t | t ∈ Icc (0 : ℝ) 1 ∧ (p t = stop ∨ p t = target)} t → Fills stop target p (p t)

variable {stop target q q' : ℝ} {p : ℝ → ℝ} {b : Bar ℝ}

/-- Orders fill at the start, or at their level. -/
theorem Fills.eq (h : Fills stop target p q) : q = p 0 ∨ q = stop ∨ q = target := by
  cases h with
  | gap _ => exact .inl rfl
  | touch _ ht => exact .inr ht.1.2

theorem Fills.unique (h : Fills stop target p q) (h' : Fills stop target p q') : q = q' := by
  cases h with
  | gap hout =>
    cases h' with
    | gap _ => rfl
    | touch hin _ => exact absurd hin hout
  | touch hin ht =>
    cases h' with
    | gap hout => exact absurd hin hout
    | touch _ ht' => rw [ht.unique ht']

theorem mem_uIoo_neg {x a c : ℝ} : -x ∈ uIoo (-a) (-c) ↔ x ∈ uIoo a c := by
  simp only [uIoo, mem_Ioo, min_neg_neg, max_neg_neg, neg_lt_neg_iff]
  exact and_comm

theorem Fills.neg (h : Fills stop target p q) :
    Fills (-stop) (-target) (fun t => -p t) (-q) := by
  cases h with
  | gap hout => exact .gap (p := fun t => -p t) (mt mem_uIoo_neg.1 hout)
  | touch hin ht =>
    refine .touch (p := fun t => -p t) (mem_uIoo_neg.2 hin) ?_
    simpa only [neg_inj] using ht

/-- A continuous path that reaches a closed set has a first time that it does. -/
theorem exists_first {C : Set ℝ} (hp : ContinuousOn p (Icc 0 1)) (hC : IsClosed C)
    (h : ∃ t ∈ Icc (0 : ℝ) 1, p t ∈ C) : ∃ t, IsLeast {t | t ∈ Icc (0 : ℝ) 1 ∧ p t ∈ C} t := by
  have hclosed : IsClosed (Icc (0 : ℝ) 1 ∩ Set.preimage p C) :=
    hp.preimage_isClosed_of_isClosed isClosed_Icc hC
  exact (isCompact_Icc.of_isClosed_subset hclosed inter_subset_left).exists_isLeast h

/-- A path that gets from above a level to below it is at the level at some time. -/
theorem exists_eq_of_le {a t : ℝ} (hp : ContinuousOn p (Icc 0 1)) (h₀ : a ≤ p 0)
    (ht : t ∈ Icc (0 : ℝ) 1) (h : p t ≤ a) : ∃ s ∈ Icc (0 : ℝ) 1, p s = a := by
  have hsub : Icc 0 t ⊆ Icc (0 : ℝ) 1 := Icc_subset_Icc_right ht.2
  obtain ⟨s, hs, heq⟩ := intermediate_value_Icc' ht.1 (hp.mono hsub) ⟨h, h₀⟩
  exact ⟨s, hsub hs, heq⟩

/-- A path that reaches a level, or passes one, fills an order. -/
theorem exists_fills {t : ℝ} (hp : ContinuousOn p (Icc 0 1)) (hlt : stop < target)
    (ht : t ∈ Icc (0 : ℝ) 1) (h : p t ≤ stop ∨ target ≤ p t) : ∃ q, Fills stop target p q := by
  by_cases h₀ : p 0 ∈ uIoo stop target
  · rw [uIoo_of_lt hlt, mem_Ioo] at h₀
    have htouch : ∃ s ∈ Icc (0 : ℝ) 1, p s ∈ ({stop, target} : Set ℝ) := by
      rcases h with h | h
      · obtain ⟨s, hs, heq⟩ := exists_eq_of_le hp h₀.1.le ht h
        exact ⟨s, hs, .inl heq⟩
      · obtain ⟨s, hs, heq⟩ := exists_eq_of_le (p := fun t => -p t) hp.neg (neg_le_neg h₀.2.le) ht
          (neg_le_neg h)
        exact ⟨s, hs, .inr (neg_inj.1 heq)⟩
    obtain ⟨s, hs⟩ := exists_first hp (toFinite _).isClosed htouch
    exact ⟨_, .touch (uIoo_of_lt hlt ▸ mem_Ioo.2 h₀) hs⟩
  · exact ⟨_, .gap h₀⟩

/-- An order fills only where the path is at a level or past one. -/
theorem Fills.reached (hlt : stop < target) (h : Fills stop target p q) :
    ∃ t ∈ Icc (0 : ℝ) 1, q = p t ∧ (p t ≤ stop ∨ target ≤ p t) := by
  cases h with
  | gap hout =>
    rw [uIoo_of_lt hlt, mem_Ioo, not_and_or, not_lt, not_lt] at hout
    exact ⟨0, by simp, rfl, hout⟩
  | touch _ ht => exact ⟨_, ht.1.1, rfl, ht.1.2.imp Eq.le Eq.ge⟩

namespace Bar

/-- Some path of the bar reaches a level if and only if each of them does. -/
theorem exit_isSome_iff (hlt : stop < target) (hp : b.IsPath p) :
    (b.exit stop target).isSome ↔ ∃ q, Fills stop target p q := by
  constructor
  · intro h
    rw [exit] at h
    split at h
    · rename_i hlow
      obtain ⟨t, ht, heq⟩ := hp.low
      exact exists_fills hp.continuousOn hlt ht (.inl (heq.trans_le hlow))
    split at h
    · rename_i hhigh
      obtain ⟨t, ht, heq⟩ := hp.high
      exact exists_fills hp.continuousOn hlt ht (.inr (hhigh.trans_eq heq.symm))
    · cases h
  · rintro ⟨q, hq⟩
    obtain ⟨t, ht, -, hreached⟩ := hq.reached hlt
    rw [exit]
    split
    · rfl
    rename_i hlow
    rcases hreached with hle | hle
    · exact absurd ((hp.mem t ht).1.trans hle) hlow
    · rw [if_pos (hle.trans (hp.mem t ht).2)]
      rfl

/-- Where the bar is supposed to fill an order, its paths fill one at no lower price. -/
theorem exit_le_of_fills {x : ℝ} (hlt : stop < target) (hp : b.IsPath p)
    (hx : b.exit stop target = some x) (hq : Fills stop target p q) : x ≤ q := by
  have hstart := hp.start
  rw [exit] at hx
  split at hx
  · -- supposed to be stopped: the price is at most the first one, and at most both levels
    obtain rfl := Option.some.inj hx
    rcases hq.eq with rfl | rfl | rfl
    · rw [hstart]
      exact min_le_left _ _
    · exact min_le_right _ _
    · exact (min_le_right _ _).trans hlt.le
  rename_i hlow
  split at hx
  · -- no path gets to the lower level
    obtain rfl := Option.some.inj hx
    obtain ⟨t, ht, rfl, hreached⟩ := hq.reached hlt
    exact hreached.resolve_left fun hle => hlow ((hp.mem t ht).1.trans hle)
  · cases hx

end Bar

end IntradayBot
