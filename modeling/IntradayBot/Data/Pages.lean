import Mathlib.Data.List.Pairwise
import Mathlib.Data.List.Dedup
import Mathlib.Order.Lattice

/-!
# Reading page by page

Rows have distinct keys and are in the order of these. A page has the first rows after a cursor
(`after`), no more than its limit, and leads to the page after it: the cursor of this one is the
key of the last row (`page`). A walk goes from page to page, until one does not lead any further
(`Walk`).

Between two requests, rows may be added. As long as there are only finitely many of them, a walk
ends; it has read each row that was there when it began, once, and it has read in the order of the
keys (`exists_walk`).
-/

namespace IntradayBot

variable {α κ γ ε : Type}

/-- The rows of a page, and the cursor of the page after it, if there is one. -/
structure Page (α γ : Type) where
  rows : List α
  next : Option γ

/-- A walk from page to page, starting with the request `i` and its cursor: the rows it reads. -/
inductive Walk (fetch : ℕ → Option γ → Except ε (Page α γ)) : ℕ → Option γ → List α → Prop
  | last {i cursor p} : fetch i cursor = .ok p → p.next = none → Walk fetch i cursor p.rows
  | more {i cursor p next l} : fetch i cursor = .ok p → p.next = some next →
    Walk fetch (i + 1) (some next) l → Walk fetch i cursor (p.rows ++ l)

/-- There is only one walk. -/
theorem Walk.unique {fetch : ℕ → Option γ → Except ε (Page α γ)} {i : ℕ} {cursor : Option γ}
    {l m : List α} (h : Walk fetch i cursor l) (h' : Walk fetch i cursor m) : l = m := by
  induction h generalizing m with
  | last hp hnext =>
    cases h' with
    | last hp' =>
      obtain rfl := Except.ok.inj (hp.symm.trans hp')
      rfl
    | more hp' hnext' =>
      obtain rfl := Except.ok.inj (hp.symm.trans hp')
      exact absurd (hnext.symm.trans hnext') (Option.some_ne_none _).symm
  | more hp hnext _ ih =>
    cases h' with
    | last hp' hnext' =>
      obtain rfl := Except.ok.inj (hp.symm.trans hp')
      exact absurd (hnext'.symm.trans hnext) (Option.some_ne_none _).symm
    | more hp' hnext' hrest =>
      obtain rfl := Except.ok.inj (hp.symm.trans hp')
      obtain rfl := Option.some.inj (hnext.symm.trans hnext')
      rw [ih hrest]

theorem Walk.iff_eq {fetch : ℕ → Option γ → Except ε (Page α γ)} {i : ℕ} {cursor : Option γ}
    {l m : List α} (h : Walk fetch i cursor l) : Walk fetch i cursor m ↔ m = l :=
  ⟨fun h' => h'.unique h, fun heq => heq ▸ h⟩

section key

variable [LinearOrder κ] (key : α → κ)

/-- Rows in the order of their keys, which are distinct. -/
abbrev Ordered (rows : List α) : Prop := rows.Pairwise fun a b => key a < key b

/-- The rows after a cursor. -/
def after (cursor : Option κ) (rows : List α) : List α :=
  rows.filter fun a => cursor.all fun c => c < key a

/-- A page of the first rows after a cursor. -/
def page (limit : ℕ) (cursor : Option κ) (rows : List α) : Page α κ :=
  let found := after key cursor rows
  { rows := found.take limit
    next := if limit < found.length then (found.take limit).getLast?.map key else none }

variable {key} {rows : List α} {cursor : Option κ} {limit : ℕ} {a : α}

/-- A page can be read with one row more than its limit, which only tells that there are more. -/
theorem page_eq_lookAhead : page key limit cursor rows =
    let read := (after key cursor rows).take (limit + 1)
    { rows := read.take limit
      next := if limit < read.length then (read.take limit).getLast?.map key else none } := by
  have htake : ((after key cursor rows).take (limit + 1)).take limit =
      (after key cursor rows).take limit := by
    rw [List.take_take, Nat.min_eq_left (Nat.le_succ _)]
  have hlength : limit < ((after key cursor rows).take (limit + 1)).length ↔
      limit < (after key cursor rows).length := by
    rw [List.length_take]
    omega
  dsimp only
  rw [page, htake]
  simp only [hlength]

theorem after_none : after key none rows = rows := List.filter_eq_self.2 fun _ _ => rfl

theorem mem_after : a ∈ after key cursor rows ↔ a ∈ rows ∧ ∀ c ∈ cursor, c < key a := by
  rw [after, List.mem_filter]
  cases cursor <;> simp

theorem Ordered.after (h : Ordered key rows) : Ordered key (after key cursor rows) :=
  List.Pairwise.sublist List.filter_sublist h

/-- What comes after the last row of a page is what the page has left. -/
theorem after_getLast? (h : Ordered key rows) {last : α}
    (hlast : ((after key cursor rows).take limit).getLast? = some last) :
    after key (some (key last)) rows = (after key cursor rows).drop limit := by
  have hmem : last ∈ (after key cursor rows).take limit := List.mem_of_getLast? hlast
  have hafter := (mem_after.1 (List.mem_of_mem_take hmem)).2
  -- what is after the last row is after the cursor, too
  have hsplit : after key (some (key last)) rows =
      after key (some (key last)) (after key cursor rows) := by
    rw [after, after, after, List.filter_filter]
    refine List.filter_congr fun a _ => ?_
    by_cases hlt : key last < key a
    · have : cursor.all (fun c => decide (c < key a)) = true := by
        rcases cursor with _ | c
        · rfl
        · exact decide_eq_true ((hafter c rfl).trans hlt)
      simp [hlt, this]
    · simp [hlt]
  have hordered : Ordered key (after key cursor rows) := h.after
  rw [hsplit]
  generalize after key cursor rows = found at hlast hmem hordered ⊢
  obtain ⟨front, hfront⟩ := List.getLast?_eq_some_iff.1 hlast
  conv_lhs => rw [← List.take_append_drop limit found]
  rw [← List.take_append_drop limit found] at hordered
  obtain ⟨hfirst, -, hrest⟩ := List.pairwise_append.1 hordered
  rw [after, List.filter_append, List.filter_eq_nil_iff.2, List.filter_eq_self.2, List.nil_append]
  · exact fun a ha => decide_eq_true (hrest last hmem a ha)
  · intro a ha
    rw [hfront] at ha
    have hle : key a ≤ key last := by
      rcases List.mem_append.1 ha with ha | ha
      · rw [hfront] at hfirst
        exact ((List.pairwise_append.1 hfirst).2.2 a ha last (List.mem_singleton_self _)).le
      · rw [List.mem_singleton.1 ha]
    simpa using hle

/-- A page that leads further has as many rows as it can have. -/
theorem page_next (hlimit : 0 < limit) :
    (page key limit cursor rows).next = none ∧ (page key limit cursor rows).rows =
        after key cursor rows ∨
      ∃ last, (page key limit cursor rows).next = some (key last) ∧
        (page key limit cursor rows).rows.getLast? = some last ∧
        (page key limit cursor rows).rows.length = limit := by
  by_cases h : limit < (after key cursor rows).length
  · have hlength : ((after key cursor rows).take limit).length = limit :=
      List.length_take_of_le (Nat.le_of_lt h)
    have hne : (after key cursor rows).take limit ≠ [] := List.ne_nil_of_length_pos (by omega)
    refine .inr ⟨_, ?_, List.getLast?_eq_some_getLast hne, hlength⟩
    rw [page, if_pos h, List.getLast?_eq_some_getLast hne, Option.map_some]
  · exact .inl ⟨if_neg h, List.take_of_length_le (Nat.le_of_not_lt h)⟩

end key

/-! ## Rows that are added -/

section tables

variable [LinearOrder κ] {key : α → κ} {tables : ℕ → List α} {limit : ℕ}

/-- Requests find rows that only become more, and all of which are among finitely many. -/
structure Grows (key : α → κ) (tables : ℕ → List α) : Prop where
  ordered : ∀ i, Ordered key (tables i)
  subset : ∀ i, tables i ⊆ tables (i + 1)
  finite : ∃ all : List α, ∀ i, tables i ⊆ all

/-- What a walk reads that begins with the request `i`. -/
structure Reads (key : α → κ) (tables : ℕ → List α) (i : ℕ) (cursor : Option κ) (l : List α) :
    Prop where
  ordered : Ordered key l
  beyond : ∀ a ∈ l, ∀ c ∈ cursor, c < key a
  all : after key cursor (tables i) ⊆ l
  only : ∀ a ∈ l, ∃ j, a ∈ tables j

theorem Reads.last (h : Grows key tables) (i : ℕ) (cursor : Option κ) :
    Reads key tables i cursor (after key cursor (tables i)) where
  ordered := (h.ordered i).after
  beyond _ ha := (mem_after.1 ha).2
  all := List.Subset.refl _
  only _ ha := ⟨i, (mem_after.1 ha).1⟩

/-- A page, and what is read after it. -/
theorem Reads.more (h : Grows key tables) {i : ℕ} {cursor : Option κ} {last : α} {l : List α}
    (hlast : ((after key cursor (tables i)).take limit).getLast? = some last)
    (hl : Reads key tables (i + 1) (some (key last)) l) :
    Reads key tables i cursor ((after key cursor (tables i)).take limit ++ l) := by
  have hmem := List.mem_of_getLast? hlast
  have hordered : Ordered key (after key cursor (tables i)) := (h.ordered i).after
  have hfront : Ordered key ((after key cursor (tables i)).take limit) :=
    hordered.sublist (List.take_sublist _ _)
  have hafter := (mem_after.1 (List.mem_of_mem_take hmem)).2
  obtain ⟨front, heq⟩ := List.getLast?_eq_some_iff.1 hlast
  have hle : ∀ a ∈ (after key cursor (tables i)).take limit, key a ≤ key last := by
    intro a ha
    rw [heq] at ha hfront
    rcases List.mem_append.1 ha with ha | ha
    · exact ((List.pairwise_append.1 hfront).2.2 a ha last (List.mem_singleton_self _)).le
    · rw [List.mem_singleton.1 ha]
  refine ⟨List.pairwise_append.2 ⟨hfront, hl.ordered, fun a ha b hb => ?_⟩, fun a ha c hc => ?_,
    fun a ha => ?_, fun a ha => ?_⟩
  · exact (hle a ha).trans_lt (hl.beyond b hb _ rfl)
  · rcases List.mem_append.1 ha with ha | ha
    · exact (mem_after.1 (List.mem_of_mem_take ha)).2 c hc
    · exact (hafter c hc).trans (hl.beyond a ha _ rfl)
  · rw [← List.take_append_drop limit (after key cursor (tables i))] at ha
    rcases List.mem_append.1 ha with ha | ha
    · exact List.mem_append_left _ ha
    · -- what the page has left is still there at the next request
      rw [← after_getLast? (h.ordered i) hlast] at ha
      obtain ⟨ha, hlt⟩ := mem_after.1 ha
      exact List.mem_append_right _ (hl.all (mem_after.2 ⟨h.subset i ha, hlt⟩))
  · rcases List.mem_append.1 ha with ha | ha
    · exact ⟨i, (mem_after.1 (List.mem_of_mem_take ha)).1⟩
    · exact hl.only a ha

/-- From each request, a walk ends: each page but the last takes one of the finitely many rows. -/
theorem exists_walk_from (h : Grows key tables) (hlimit : 0 < limit) (i : ℕ)
    (cursor : Option κ) : ∃ l, Walk (ε := ε)
      (fun i cursor => .ok (page key limit cursor (tables i))) i cursor l ∧
        Reads key tables i cursor l := by
  obtain ⟨all, hall⟩ := h.finite
  generalize hn : (after key cursor all).length = n
  induction n using Nat.strongRecOn generalizing i cursor with
  | _ n ih =>
    rcases @page_next _ _ _ key (tables i) cursor _ hlimit with
      ⟨hnext, hrows⟩ | ⟨last, hnext, hlast, -⟩
    · refine ⟨_, .last rfl hnext, ?_⟩
      rw [hrows]
      exact .last h i cursor
    · have hmem : last ∈ after key cursor (tables i) :=
        List.mem_of_mem_take (List.mem_of_getLast? hlast)
      obtain ⟨hin, hafter⟩ := mem_after.1 hmem
      -- The cursor moves past `last`, so fewer rows are left than there were before the page.
      have hfewer : (after key (some (key last)) all).length < n := by
        rw [← hn]
        have hsub : (after key (some (key last)) all).Sublist (after key cursor all) := by
          refine List.monotone_filter_right _ fun a ha => ?_
          rcases cursor with _ | c
          · rfl
          · exact decide_eq_true ((hafter c rfl).trans (of_decide_eq_true ha))
        refine Nat.lt_of_le_of_ne hsub.length_le fun heq => ?_
        have : last ∈ after key (some (key last)) all := by
          rw [hsub.eq_of_length heq]
          exact mem_after.2 ⟨hall i hin, hafter⟩
        exact lt_irrefl _ ((mem_after.1 this).2 _ rfl)
      obtain ⟨l, hwalk, hreads⟩ := ih _ hfewer (i + 1) (some (key last)) rfl
      exact ⟨_, .more rfl hnext hwalk, .more h hlast hreads⟩

/-- A walk from the first request ends. It reads every row of the beginning, in the order of the
    keys. -/
theorem exists_walk (h : Grows key tables) (hlimit : 0 < limit) : ∃ l, Walk (ε := ε)
    (fun i cursor => .ok (page key limit cursor (tables i))) 0 none l ∧
      Ordered key l ∧ tables 0 ⊆ l ∧ ∀ a ∈ l, ∃ i, a ∈ tables i := by
  obtain ⟨l, hwalk, hreads⟩ := exists_walk_from (ε := ε) h hlimit 0 none
  have hall := hreads.all
  rw [after_none] at hall
  exact ⟨l, hwalk, hreads.ordered, hall, hreads.only⟩

end tables

/-- A walk whose cursors and rows are written in another way, where the cursors it meets are. -/
theorem Walk.map {β δ : Type} {fetch : ℕ → Option γ → Except ε (Page α γ)} {ε' : Type}
    {fetch' : ℕ → Option δ → Except ε' (Page β δ)} (f : α → β) (encode : γ → δ)
    (Valid : Option γ → Prop)
    (h : ∀ i cursor p, Valid cursor → fetch i cursor = .ok p →
      fetch' i (cursor.map encode) = .ok ⟨p.rows.map f, p.next.map encode⟩ ∧ Valid p.next)
    {i : ℕ} {cursor : Option γ} {l : List α} (hw : Walk fetch i cursor l) (hv : Valid cursor) :
    Walk fetch' i (cursor.map encode) (l.map f) := by
  induction hw with
  | last hp hnext => exact .last (h _ _ _ hv hp).1 (by rw [hnext]; rfl)
  | more hp hnext _ ih =>
    obtain ⟨hp', hv'⟩ := h _ _ _ hv hp
    rw [List.map_append]
    exact .more hp' (by rw [hnext]; rfl) (ih (hnext ▸ hv'))

end IntradayBot
