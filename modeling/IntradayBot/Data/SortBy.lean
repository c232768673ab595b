import Mathlib.Data.List.Sort
import Mathlib.Data.List.Perm.Basic
import Mathlib.Data.String.Basic

/-!
# Sorting by a key

`sortBy key` sorts a list by the key of its elements, and keeps the order of those of
one key, as the sort of Python does.

A list that is sorted by a key is determined by its parts (`eq_of_filter_eq`), where a
key does not belong to two parts: sorting the parts is then as good as sorting the whole.

A database orders its texts by its `Collation`.
-/

namespace IntradayBot

variable {α κ γ : Type} [LinearOrder κ]

/-- `sorted(l, key=key)` -/
def sortBy (key : α → κ) (l : List α) : List α := l.insertionSort fun a b => key a ≤ key b

/-- Sorted by the key. -/
abbrev SortedBy (key : α → κ) (l : List α) : Prop := l.Pairwise fun a b => key a ≤ key b

variable {key : α → κ} {l m : List α}

theorem sortBy_perm (key : α → κ) (l : List α) : (sortBy key l).Perm l := List.perm_insertionSort ..

@[simp] theorem mem_sortBy {a : α} : a ∈ sortBy key l ↔ a ∈ l := (sortBy_perm key l).mem_iff

theorem sortBy_cons (a : α) (l : List α) :
    sortBy key (a :: l) = (sortBy key l).orderedInsert (fun a b => key a ≤ key b) a := rfl

theorem sortedBy_sortBy (key : α → κ) (l : List α) : SortedBy key (sortBy key l) := by
  have : Std.Total fun a b : α => key a ≤ key b := ⟨fun a b => le_total (key a) (key b)⟩
  have : IsTrans α fun a b => key a ≤ key b := ⟨fun _ _ _ => le_trans⟩
  exact List.pairwise_insertionSort _ l

theorem sortBy_of_sorted (h : SortedBy key l) : sortBy key l = l := h.insertionSort_eq

/-- What is inserted before all of the second part is inserted in the first one. -/
theorem orderedInsert_append {a : α} (h : ∀ b ∈ m, key a ≤ key b) :
    (l ++ m).orderedInsert (fun a b => key a ≤ key b) a =
      l.orderedInsert (fun a b => key a ≤ key b) a ++ m := by
  induction l with
  | nil =>
    cases m with
    | nil => rfl
    | cons b m => exact List.orderedInsert_cons_of_le _ m (h b (by simp))
  | cons c l ih =>
    rw [List.cons_append, List.orderedInsert_cons, List.orderedInsert_cons, ih]
    split <;> rfl

/-- Two lists, all of the first one ordered before all of the second one, are sorted apart. -/
theorem sortBy_append (h : ∀ a ∈ l, ∀ b ∈ m, key a ≤ key b) :
    sortBy key (l ++ m) = sortBy key l ++ sortBy key m := by
  induction l with
  | nil => rfl
  | cons a l ih =>
    rw [List.forall_mem_cons] at h
    rw [List.cons_append, sortBy_cons, sortBy_cons, ih h.2]
    exact orderedInsert_append fun b hb => h.1 b (mem_sortBy.1 hb)

theorem filter_orderedInsert {a : α} (p : α → Bool) (hl : SortedBy key l) :
    (l.orderedInsert (fun a b => key a ≤ key b) a).filter p =
      if p a then (l.filter p).orderedInsert (fun a b => key a ≤ key b) a else l.filter p := by
  induction l with
  | nil => simp [List.filter_cons]
  | cons b l ih =>
    obtain ⟨hb, hl⟩ := List.pairwise_cons.1 hl
    rw [List.orderedInsert_cons]
    split
    · rename_i hab
      -- all that is left comes after `a`
      have hall : ∀ c ∈ (b :: l).filter p, key a ≤ key c := by
        intro c hc
        rcases List.mem_cons.1 (List.mem_filter.1 hc).1 with rfl | hc
        · exact hab
        · exact hab.trans (hb c hc)
      rw [List.filter_cons]
      split
      · rcases hf : (b :: l).filter p with _ | ⟨c, t⟩
        · rfl
        · exact (List.orderedInsert_cons_of_le _ t (hall c (by simp [hf]))).symm
      · rfl
    · rename_i hab
      rw [List.filter_cons, ih hl, List.filter_cons]
      by_cases hpb : p b <;> by_cases hpa : p a <;> simp [hpb, hpa, hab]

/-- A part of what is sorted is the part, sorted. -/
theorem filter_sortBy (p : α → Bool) (l : List α) :
    (sortBy key l).filter p = sortBy key (l.filter p) := by
  induction l with
  | nil => rfl
  | cons a l ih =>
    rw [sortBy_cons, filter_orderedInsert p (sortedBy_sortBy key l), ih, List.filter_cons]
    split <;> rfl

/-- Where keys are distinct, sorting does not depend on the order. -/
theorem sortBy_eq_of_perm (h : l.Perm m) (hm : m.Pairwise fun a b => key a < key b) :
    sortBy key l = m := by
  have hnodup : (m.map key).Nodup := List.pairwise_map.2 (hm.imp fun h => h.ne)
  have hperm := (sortBy_perm key l).trans h
  refine hperm.eq_of_pairwise (fun a b ha hb hab hba => ?_) (sortedBy_sortBy key l)
    (hm.imp fun h => h.le)
  exact List.inj_on_of_nodup_map hnodup (hperm.mem_iff.1 ha) hb (le_antisymm hab hba)

/-- Distinct keys are sorted strictly. -/
theorem pairwise_lt_sortBy (hkey : (l.map key).Nodup) :
    (sortBy key l).Pairwise fun a b => key a < key b := by
  have hnodup : ((sortBy key l).map key).Nodup := ((sortBy_perm key l).map key).nodup_iff.2 hkey
  exact (sortedBy_sortBy key l).imp₂ (fun _ _ hle hne => lt_of_le_of_ne hle hne)
    (List.pairwise_map.1 hnodup)

theorem sortBy_congr (h : l.Perm m) (hkey : (m.map key).Nodup) : sortBy key l = sortBy key m :=
  sortBy_eq_of_perm (h.trans (sortBy_perm key m).symm) (pairwise_lt_sortBy hkey)

section parts

variable [DecidableEq γ] {part : α → γ}

theorem perm_of_filter_eq [DecidableEq α]
    (h : ∀ c, l.filter (part · = c) = m.filter (part · = c)) : l.Perm m := by
  rw [List.perm_iff_count]
  intro a
  have hcount : ∀ l : List α, (l.filter (part · = part a)).count a = l.count a := fun l =>
    List.count_filter (by simp)
  rw [← hcount l, h, hcount m]

variable (part) in
/-- A sorted list is determined by its parts, where a key does not belong to two of them. -/
theorem eq_of_filter_eq (hl : SortedBy key l) (hm : SortedBy key m)
    (hkey : ∀ a ∈ l, ∀ b ∈ m, key a = key b → part a = part b)
    (h : ∀ c, l.filter (part · = c) = m.filter (part · = c)) : l = m := by
  have mem : ∀ {l m : List α}, (∀ c, l.filter (part · = c) = m.filter (part · = c)) →
      ∀ a, a ∈ l ↔ a ∈ m := fun h a => by
    have := congrArg (a ∈ ·) (h (part a))
    simpa using this
  induction l generalizing m with
  | nil =>
    symm
    rw [List.eq_nil_iff_forall_not_mem]
    intro a ha
    simpa using (mem h a).2 ha
  | cons a l ih =>
    rcases m with _ | ⟨b, m⟩
    · simpa using (mem h a).1 (by simp)
    obtain ⟨hal, hlt⟩ := List.pairwise_cons.1 hl
    obtain ⟨hbm, hmt⟩ := List.pairwise_cons.1 hm
    -- both heads are the least, so they are of one part, whose head they are
    have hab : key a ≤ key b := by
      rcases List.mem_cons.1 ((mem h b).2 (by simp)) with rfl | hb
      · exact le_rfl
      · exact hal b hb
    have hba : key b ≤ key a := by
      rcases List.mem_cons.1 ((mem h a).1 (by simp)) with rfl | ha
      · exact le_rfl
      · exact hbm a ha
    have hpart := hkey a (by simp) b (by simp) (le_antisymm hab hba)
    have hhead := h (part a)
    rw [List.filter_cons_of_pos (by simp), List.filter_cons_of_pos (by simp [hpart])] at hhead
    obtain ⟨rfl, -⟩ := List.cons.inj hhead
    have htail : ∀ c, l.filter (part · = c) = m.filter (part · = c) := by
      intro c
      have := h c
      rw [List.filter_cons, List.filter_cons] at this
      split at this
      · exact (List.cons.inj this).2
      · exact this
    rw [ih hlt hmt (fun c hc d hd => hkey c (List.mem_cons_of_mem _ hc) d
      (List.mem_cons_of_mem _ hd)) htail]

end parts

/-! ## Texts -/

/-- How a database orders its texts. -/
structure Collation where
  order : LinearOrder String

namespace Collation

/-- A text, in the order of a collation. -/
def Text (_ : Collation) : Type := String

instance (collation : Collation) : LinearOrder collation.Text := collation.order

/-- The text in the order of the collation. -/
def text (collation : Collation) (s : String) : collation.Text := s

/-- The order of the code points. -/
def codePoints : Collation := ⟨inferInstance⟩

end Collation

end IntradayBot
