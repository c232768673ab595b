import Mathlib.Algebra.Order.Field.Basic
import Mathlib.Order.Bounds.Basic
import Mathlib.Tactic.Linarith

/-!
# Drops of a sequence

How far the values of a list fall, from one of its places to a later one (`drops`), and how far
that is in percent of where they fall from (`percents`).

When the list goes on, it falls to its new end from all that it had before, and the furthest from
its highest value (`isGreatest_drops_concat`, `percents_concat`): the highest value and the largest
drop are all that a pass over the list has to keep.
-/

namespace IntradayBot.Drop

/-! ## Pairs of a list -/

section Pairs

variable {α : Type*} {l : List α} {a b c : α}

/-- `a` stands in the list, and `b` at its place or after it. -/
def Precedes (l : List α) (a b : α) : Prop :=
  ∃ i j : ℕ, i ≤ j ∧ l[i]? = some a ∧ l[j]? = some b

theorem precedes_singleton : Precedes [c] a b ↔ a = c ∧ b = c := by
  constructor
  · rintro ⟨i, j, -, hi, hj⟩
    exact ⟨List.mem_singleton.1 (List.mem_of_getElem? hi),
      List.mem_singleton.1 (List.mem_of_getElem? hj)⟩
  · rintro ⟨rfl, rfl⟩
    exact ⟨0, 0, le_rfl, rfl, rfl⟩

/-- The pairs of a longer list are those of the list, and all that end at its new element. -/
theorem precedes_concat : Precedes (l ++ [c]) a b ↔ Precedes l a b ∨ a ∈ l ++ [c] ∧ b = c := by
  constructor
  · rintro ⟨i, j, hij, hi, hj⟩
    rcases lt_or_ge j l.length with hlt | hge
    · rw [List.getElem?_append_left hlt] at hj
      rw [List.getElem?_append_left (hij.trans_lt hlt)] at hi
      exact .inl ⟨i, j, hij, hi, hj⟩
    · rw [List.getElem?_append_right hge] at hj
      exact .inr ⟨List.mem_of_getElem? hi, List.mem_singleton.1 (List.mem_of_getElem? hj)⟩
  · rintro (⟨i, j, hij, hi, hj⟩ | ⟨ha, rfl⟩)
    · have hj' := (List.getElem?_eq_some_iff.1 hj).1
      exact ⟨i, j, hij, (List.getElem?_append_left (hij.trans_lt hj')).trans hi,
        (List.getElem?_append_left hj').trans hj⟩
    · obtain ⟨i, hi⟩ := List.mem_iff_getElem?.1 ha
      have hlt : i < (l ++ [b]).length := (List.getElem?_eq_some_iff.1 hi).1
      rw [List.length_append, List.length_singleton] at hlt
      exact ⟨i, l.length, Nat.le_of_lt_succ hlt, hi, by simp⟩

end Pairs

/-! ## Highest values -/

section Values

variable {α K : Type*} [LinearOrder K] {f : α → K} {l : List α} {c : α} {m : K}

/-- The values of a list. -/
def values (f : α → K) (l : List α) : Set K := {x | ∃ a ∈ l, f a = x}

theorem isGreatest_values_singleton (f : α → K) (c : α) : IsGreatest (values f [c]) (f c) := by
  refine ⟨⟨c, List.mem_singleton_self c, rfl⟩, ?_⟩
  rintro x ⟨a, ha, rfl⟩
  rw [List.mem_singleton.1 ha]

theorem isGreatest_values_concat (h : IsGreatest (values f l) m) :
    IsGreatest (values f (l ++ [c])) (max m (f c)) := by
  obtain ⟨⟨a, ha, rfl⟩, hle⟩ := h
  constructor
  · rcases max_choice (f a) (f c) with h | h <;> rw [h]
    · exact ⟨a, List.mem_append_left _ ha, rfl⟩
    · exact ⟨c, List.mem_append_right _ (List.mem_singleton_self c), rfl⟩
  · rintro x ⟨b, hb, rfl⟩
    rcases List.mem_append.1 hb with hb | hb
    · exact (hle ⟨b, hb, rfl⟩).trans (le_max_left _ _)
    · rw [List.mem_singleton.1 hb]
      exact le_max_right _ _

end Values

/-! ## Drops -/

section Drops

variable {α K : Type*} [AddCommGroup K] [LinearOrder K] {f : α → K} {l : List α} {c : α} {m d x : K}

/-- How far the list falls, from one of its places to a later one. -/
def drops (f : α → K) (l : List α) : Set K := {x | ∃ a b, Precedes l a b ∧ f a - f b = x}

omit [LinearOrder K] in
theorem drops_singleton (f : α → K) (c : α) : drops f [c] = {0} := by
  ext x
  simp only [drops, precedes_singleton, Set.mem_ofPred_eq, Set.mem_singleton_iff]
  constructor
  · rintro ⟨a, b, ⟨rfl, rfl⟩, rfl⟩
    exact sub_self _
  · rintro rfl
    exact ⟨c, c, ⟨rfl, rfl⟩, sub_self _⟩

/-- The furthest that the list falls to its end is from its highest value. -/
theorem isGreatest_drops_concat [IsOrderedAddMonoid K]
    (hm : IsGreatest (values f (l ++ [c])) m) (hd : IsGreatest (drops f l) d) :
    IsGreatest (drops f (l ++ [c])) (max d (m - f c)) := by
  obtain ⟨⟨p, hp, rfl⟩, hle⟩ := hm
  constructor
  · rcases max_choice d (f p - f c) with h | h <;> rw [h]
    · obtain ⟨a, b, hab, heq⟩ := hd.1
      exact ⟨a, b, precedes_concat.2 (.inl hab), heq⟩
    · exact ⟨p, c, precedes_concat.2 (.inr ⟨hp, rfl⟩), rfl⟩
  · rintro x ⟨a, b, hab, rfl⟩
    rcases precedes_concat.1 hab with hab | ⟨ha, rfl⟩
    · exact (hd.2 ⟨a, b, hab, rfl⟩).trans (le_max_left _ _)
    · exact (sub_le_sub_right (hle ⟨a, ha, rfl⟩) _).trans (le_max_right _ _)

end Drops

/-! ## Percentages -/

section Percents

variable {α K : Type*} [Field K] [LinearOrder K] {f : α → K} {l : List α} {c : α} {m d x y : K}
  {s t : Set K}

/-- The drops of the size `d`, in percent of where they start. -/
def percents (f : α → K) (l : List α) (d : K) : Set K :=
  {r | ∃ a b, Precedes l a b ∧ f a - f b = d ∧ 0 < f a ∧ d * 100 / f a = r}

/-- The greatest element of a set, and `0` if the set is empty. -/
def IsTop (s : Set K) (x : K) : Prop := IsGreatest s x ∨ s = ∅ ∧ x = 0

/-- The drop from the highest value `m` to the end is the only new one of its size, and there is
    no new one of a larger size. -/
theorem percents_concat [IsStrictOrderedRing K] (hm : IsGreatest (values f (l ++ [c])) m)
    (hd : m - f c ≤ d) :
    percents f (l ++ [c]) d =
      percents f l d ∪ {r | m - f c = d ∧ 0 < m ∧ d * 100 / m = r} := by
  obtain ⟨⟨p, hp, rfl⟩, hle⟩ := hm
  ext r
  constructor
  · rintro ⟨a, b, hab, heq, hpos, hr⟩
    rcases precedes_concat.1 hab with hab | ⟨ha, rfl⟩
    · exact .inl ⟨a, b, hab, heq, hpos, hr⟩
    · have hpa : f a = f p := by
        refine (hle ⟨a, ha, rfl⟩).antisymm ?_
        linarith
      rw [hpa] at heq hpos hr
      exact .inr ⟨heq, hpos, hr⟩
  · rintro (⟨a, b, hab, heq, hpos, hr⟩ | ⟨heq, hpos, hr⟩)
    · exact ⟨a, b, precedes_concat.2 (.inl hab), heq, hpos, hr⟩
    · exact ⟨p, c, precedes_concat.2 (.inr ⟨hp, rfl⟩), heq, hpos, hr⟩

/-- No drop is larger than the largest. -/
theorem percents_eq_empty (hd : IsGreatest (drops f l) d) (hlt : d < x) : percents f l x = ∅ := by
  rw [Set.eq_empty_iff_forall_notMem]
  rintro r ⟨a, b, hab, rfl, -⟩
  exact (hd.2 ⟨a, b, hab, rfl⟩).not_gt hlt

theorem percents_nonneg [IsStrictOrderedRing K] (hd : 0 ≤ d) : ∀ r ∈ percents f l d, 0 ≤ r := by
  rintro r ⟨a, -, -, -, hpos, rfl⟩
  exact div_nonneg (mul_nonneg hd (by norm_num)) hpos.le

theorem IsTop.nonneg (h : IsTop s x) (hs : ∀ r ∈ s, 0 ≤ r) : 0 ≤ x := by
  rcases h with h | ⟨-, rfl⟩
  · exact hs x h.1
  · exact le_rfl

theorem isTop_singleton_or (p : Prop) [Decidable p] (y : K) :
    IsTop {r | p ∧ y = r} (if p then y else 0) := by
  split
  · rename_i h
    exact .inl ⟨⟨h, rfl⟩, fun r hr => hr.2.ge⟩
  · rename_i h
    exact .inr ⟨Set.eq_empty_of_forall_notMem fun r hr => h hr.1, rfl⟩

/-- The greatest element of a union, of sets of nonnegative elements. -/
theorem IsTop.union (hs : IsTop s x) (ht : IsTop t y) (hs₀ : ∀ r ∈ s, 0 ≤ r)
    (ht₀ : ∀ r ∈ t, 0 ≤ r) : IsTop (s ∪ t) (max x y) := by
  rcases hs with hs | ⟨rfl, rfl⟩
  · rcases ht with ht | ⟨rfl, rfl⟩
    · exact .inl (hs.union ht)
    · rw [Set.union_empty, max_eq_left (hs₀ x hs.1)]
      exact .inl hs
  · rw [Set.empty_union, max_eq_right (ht.nonneg ht₀)]
    exact ht

end Percents

end IntradayBot.Drop
