import Mathlib.Data.List.DropRight

/-!
# Trimming

`trimBy p l` is the list `l` without the elements around it that satisfy `p`. It is `l` itself
if `l` is bare: neither its first element nor its last satisfies `p`. Two predicates trim a
list alike where what the first one drops satisfies the second as well, and what remains does
not (`trimBy_eq_of_split`).
-/

namespace IntradayBot

variable {α : Type} {p q : α → Bool} {l : List α}

/-- The list without the elements around it that satisfy `p`. -/
def trimBy (p : α → Bool) (l : List α) : List α := (l.dropWhile p).rdropWhile p

/-- Neither end of the list satisfies `p`. -/
structure Bare (p : α → Bool) (l : List α) : Prop where
  head : ∀ x ∈ l.head?, ¬p x
  last : ∀ x ∈ l.getLast?, ¬p x

theorem Bare.of_forall (h : ∀ x ∈ l, ¬p x) : Bare p l :=
  ⟨fun x hx => h x (List.mem_of_mem_head? hx), fun x hx => h x (List.mem_of_mem_getLast? hx)⟩

/-- What is trimmed satisfies the predicate. -/
theorem trimBy_split (p : α → Bool) (l : List α) :
    ∃ a b, l = a ++ trimBy p l ++ b ∧ (∀ x ∈ a, p x) ∧ ∀ x ∈ b, p x := by
  refine ⟨l.takeWhile p, (l.dropWhile p).rtakeWhile p, ?_, fun x => List.mem_takeWhile_imp,
    fun x => List.mem_rtakeWhile_imp⟩
  rw [trimBy, List.append_assoc, List.rdropWhile_append_rtakeWhile,
    List.takeWhile_append_dropWhile]

theorem trimBy_bare (p : α → Bool) (l : List α) : Bare p (trimBy p l) where
  head x hx := by
    have hpre : trimBy p l <+: l.dropWhile p := List.rdropWhile_prefix _ _
    have hhead : (l.dropWhile p).head? = some x := by
      obtain ⟨t, ht⟩ := hpre
      rw [← ht, List.head?_append, hx]
      rfl
    have hnot := List.head?_dropWhile_not p l
    rw [hhead] at hnot
    simpa using hnot
  last x hx := by
    have hne : trimBy p l ≠ [] := by
      rintro h
      simp [h] at hx
    have hnot := List.rdropWhile_last_not p (l.dropWhile p) hne
    rw [List.getLast?_eq_some_getLast hne, Option.mem_some_iff] at hx
    rwa [← hx]

theorem Bare.trimBy_eq (h : Bare p l) : trimBy p l = l := by
  have hdrop : l.dropWhile p = l := by
    cases l with
    | nil => rfl
    | cons x l => exact List.dropWhile_cons_of_neg (h.head x rfl)
  rw [trimBy, hdrop, List.rdropWhile_eq_self_iff]
  exact fun hl => h.last _ (List.getLast?_eq_some_getLast hl)

theorem trimBy_eq_self_iff : trimBy p l = l ↔ Bare p l :=
  ⟨fun h => h ▸ trimBy_bare p l, Bare.trimBy_eq⟩

theorem trimBy_append {a b : List α} (ha : ∀ x ∈ a, p x) (hb : ∀ x ∈ b, p x) (hl : Bare p l) :
    trimBy p (a ++ l ++ b) = l := by
  cases l with
  | nil =>
    have hall : ∀ x ∈ a ++ [] ++ b, p x := by simpa [or_imp, forall_and] using ⟨ha, hb⟩
    rw [trimBy, List.dropWhile_eq_nil_iff.2 hall]
    rfl
  | cons x l =>
    have hx : ¬p x := hl.head x rfl
    have hdrop : (a ++ x :: l ++ b).dropWhile p = x :: l ++ b := by
      rw [List.append_assoc, List.dropWhile_append_of_pos ha]
      exact List.dropWhile_cons_of_neg hx
    have hrdrop : (x :: l ++ b).rdropWhile p = (x :: l).rdropWhile p := by
      unfold List.rdropWhile
      rw [List.reverse_append, List.dropWhile_append_of_pos (by simpa using hb)]
    rw [trimBy, hdrop, hrdrop, List.rdropWhile_eq_self_iff]
    exact fun h => hl.last _ (List.getLast?_eq_some_getLast h)

theorem trimBy_eq_nil_iff : trimBy p l = [] ↔ ∀ x ∈ l, p x := by
  constructor
  · intro h
    obtain ⟨a, b, hl, ha, hb⟩ := trimBy_split p l
    rw [h] at hl
    intro x hx
    rw [hl, List.append_nil, List.mem_append] at hx
    exact hx.elim (ha x) (hb x)
  · intro h
    rw [trimBy, List.dropWhile_eq_nil_iff.2 h]
    rfl

/-- Two predicates trim a list alike if what one of them drops satisfies the other as well,
    and what remains does not. -/
theorem trimBy_eq_of_split (hl : ∀ x ∈ l, p x → q x) (hq : ∀ x ∈ trimBy p l, ¬q x) :
    trimBy q l = trimBy p l := by
  obtain ⟨a, b, h, ha, hb⟩ := trimBy_split p l
  have hsub : ∀ x ∈ a ++ trimBy p l ++ b, p x → q x := h ▸ hl
  have hqa : ∀ x ∈ a, q x := fun x hx => hsub x (by simp [hx]) (ha x hx)
  have hqb : ∀ x ∈ b, q x := fun x hx => hsub x (by simp [hx]) (hb x hx)
  calc trimBy q l = trimBy q (a ++ trimBy p l ++ b) := by rw [← h]
    _ = trimBy p l := trimBy_append hqa hqb (.of_forall hq)

end IntradayBot
