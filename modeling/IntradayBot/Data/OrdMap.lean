import Mathlib.Data.List.Nodup

/-!
# Insertion-ordered maps

A finite map that remembers the order in which its keys were first set: setting
a key that is there keeps its place, and a new key goes last. This is how the
maps of JavaScript iterate, and it models as well a table with a primary key.

The keys are distinct by construction, so that the entries and the look-up
function `get?` determine each other (`mem_entries`).
-/

namespace IntradayBot

/-- An insertion-ordered map. -/
structure OrdMap (κ ν : Type) where
  entries : List (κ × ν)
  nodup : (entries.map Prod.fst).Nodup

namespace OrdMap

variable {κ ν : Type}

/-- The empty map. -/
def empty : OrdMap κ ν := ⟨[], List.nodup_nil⟩

instance : EmptyCollection (OrdMap κ ν) := ⟨empty⟩

/-- The values, in the order of their keys. -/
def values (m : OrdMap κ ν) : List ν := m.entries.map Prod.snd

variable [DecidableEq κ]

/-- The value of the key `k` in a list of entries. -/
def find (k : κ) : List (κ × ν) → Option ν
  | [] => none
  | (k', v) :: l => if k' = k then some v else find k l

/-- The list of entries with `k` set to `v`. -/
def put (k : κ) (v : ν) : List (κ × ν) → List (κ × ν)
  | [] => [(k, v)]
  | (k', v') :: l => if k' = k then (k, v) :: l else (k', v') :: put k v l

theorem mem_map_fst_put {k k' : κ} {v : ν} {l : List (κ × ν)} :
    k' ∈ (put k v l).map Prod.fst ↔ k' = k ∨ k' ∈ l.map Prod.fst := by
  induction l with
  | nil => simp [put]
  | cons e l ih =>
    unfold put
    split
    · rename_i h
      simp [h]
    · simp only [List.map_cons, List.mem_cons, ih]
      tauto

theorem nodup_put {k : κ} {v : ν} {l : List (κ × ν)} (h : (l.map Prod.fst).Nodup) :
    ((put k v l).map Prod.fst).Nodup := by
  induction l with
  | nil => simp [put]
  | cons e l ih =>
    rw [List.map_cons, List.nodup_cons] at h
    unfold put
    split
    · rename_i he
      exact List.nodup_cons.2 ⟨he ▸ h.1, h.2⟩
    · rename_i he
      refine List.nodup_cons.2 ⟨fun hm => ?_, ih h.2⟩
      exact (mem_map_fst_put.1 hm).elim he h.1

theorem put_of_notMem {k : κ} {v : ν} {l : List (κ × ν)} (h : k ∉ l.map Prod.fst) :
    put k v l = l ++ [(k, v)] := by
  induction l with
  | nil => rfl
  | cons e l ih =>
    obtain ⟨hne, hl⟩ := not_or.1 (List.mem_cons.not.1 h)
    rw [put, if_neg (Ne.symm hne), ih hl, List.cons_append]

/-- The value of the key `k`. -/
def get? (m : OrdMap κ ν) (k : κ) : Option ν := find k m.entries

/-- The map with `k` set to `v`. -/
def set (m : OrdMap κ ν) (k : κ) (v : ν) : OrdMap κ ν := ⟨put k v m.entries, nodup_put m.nodup⟩

@[simp] theorem get?_empty (k : κ) : (∅ : OrdMap κ ν).get? k = none := rfl

theorem get?_set (m : OrdMap κ ν) (k k' : κ) (v : ν) :
    (m.set k v).get? k' = if k' = k then some v else m.get? k' := by
  obtain ⟨l, hl⟩ := m
  change find k' (put k v l) = if k' = k then some v else find k' l
  clear hl
  induction l with
  | nil => simp [put, find, eq_comm]
  | cons e l ih =>
    unfold put
    split
    · rename_i he
      by_cases h : k' = k
      · simp [find, h]
      · simp [find, he, h, Ne.symm h]
    · rename_i he
      by_cases h : e.1 = k'
      · have : k' ≠ k := fun h' => he (h.trans h')
        simp [find, h, this]
      · simp [find, h, ih]

@[simp] theorem get?_set_self (m : OrdMap κ ν) (k : κ) (v : ν) : (m.set k v).get? k = some v := by
  simp [get?_set]

theorem get?_set_of_ne (m : OrdMap κ ν) {k k' : κ} (v : ν) (h : k' ≠ k) :
    (m.set k v).get? k' = m.get? k' := by
  simp [get?_set, h]

theorem mem_entries {m : OrdMap κ ν} {k : κ} {v : ν} :
    (k, v) ∈ m.entries ↔ m.get? k = some v := by
  obtain ⟨l, hl⟩ := m
  change _ ↔ find k l = some v
  induction l with
  | nil => simp [find]
  | cons e l ih =>
    rw [List.map_cons, List.nodup_cons] at hl
    unfold find
    split
    · rename_i he
      subst he
      constructor
      · intro h
        rcases List.mem_cons.1 h with h | h
        · rw [← h]
        · exact absurd (List.mem_map_of_mem h) hl.1
      · intro h
        exact List.mem_cons.2 (.inl (by rw [← Option.some.inj h]))
    · rename_i he
      rw [List.mem_cons, ih hl.2, or_iff_right]
      exact fun h => he (by rw [← h])

/-- The entries whose value meets `p`. -/
def filterValues (m : OrdMap κ ν) (p : ν → Bool) : OrdMap κ ν where
  entries := m.entries.filter fun e => p e.2
  nodup := m.nodup.sublist (List.filter_sublist.map _)

theorem get?_filterValues (m : OrdMap κ ν) (p : ν → Bool) (k : κ) :
    (m.filterValues p).get? k = (m.get? k).filter p := by
  ext v
  rw [← mem_entries, Option.filter_eq_some_iff, ← mem_entries]
  exact List.mem_filter

theorem mem_values {m : OrdMap κ ν} {v : ν} : v ∈ m.values ↔ ∃ k, m.get? k = some v := by
  simp only [values, List.mem_map, Prod.exists, exists_eq_right, mem_entries]

end OrdMap

end IntradayBot
