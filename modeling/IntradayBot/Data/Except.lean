import Mathlib.Data.List.Forall2
import Mathlib.Tactic.Basic

/-!
# Computations that may fail

What the success of a computation in `Except` says of its parts, and computations that agree:
both fail, with the same error, or neither does, and the results are related (`Agree`).
-/

namespace IntradayBot

variable {ε α β : Type}

/-- Fails with `e` unless `c`. -/
def require (c : Prop) [Decidable c] (e : ε) : Except ε Unit := if c then .ok () else .error e

theorem require_eq_ok {c : Prop} [Decidable c] {e : ε} {u : Unit} :
    require c e = .ok u ↔ c := by
  rw [require]
  split <;> simp [*]

theorem bind_eq_ok {r : Except ε α} {f : α → Except ε β} {b : β} :
    r >>= f = .ok b ↔ ∃ a, r = .ok a ∧ f a = .ok b := by
  rcases r with e | a <;> simp [bind, Except.bind]

/-- An error of a sequence is of one of its steps. -/
theorem bind_eq_error {r : Except ε α} {f : α → Except ε β} {e : ε} :
    r >>= f = .error e ↔ r = .error e ∨ ∃ a, r = .ok a ∧ f a = .error e := by
  rcases r with e | a <;> simp [bind, Except.bind]

theorem map_eq_ok {r : Except ε α} {f : α → β} {b : β} :
    f <$> r = .ok b ↔ ∃ a, r = .ok a ∧ f a = b := by
  rcases r with e | a <;> simp [Functor.map, Except.map]

theorem pure_eq_ok {a b : α} : (pure a : Except ε α) = .ok b ↔ a = b := by
  simp [pure, Except.pure]

theorem mapError_eq_ok {ε' : Type} {r : Except ε α} {f : ε → ε'} {a : α} :
    r.mapError f = .ok a ↔ r = .ok a := by
  rcases r with e | b <;> simp [Except.mapError]

theorem any_toOption {x : Except ε α} {p : α → Bool} :
    x.toOption.any p ↔ ∃ a, x = .ok a ∧ p a := by
  rcases x with e | a <;> simp [Except.toOption]

theorem mapM_eq_ok {f : α → Except ε β} {l : List α} {l' : List β} :
    l.mapM f = .ok l' ↔ List.Forall₂ (fun a b => f a = .ok b) l l' := by
  induction l generalizing l' with
  | nil =>
    rw [List.mapM_nil, pure_eq_ok, List.forall₂_nil_left_iff, eq_comm]
  | cons a l ih =>
    simp only [List.mapM_cons, bind_eq_ok, pure_eq_ok, List.forall₂_cons_left_iff, ih]
    constructor
    · rintro ⟨b, hb, l₁, hl, rfl⟩
      exact ⟨b, l₁, hb, hl, rfl⟩
    · rintro ⟨b, l₁, hb, hl, rfl⟩
      exact ⟨b, hb, l₁, hl, rfl⟩

theorem exists_of_mem_forall₂ {R : α → β → Prop} {l : List α} {m : List β} {b : β}
    (h : List.Forall₂ R l m) (hb : b ∈ m) : ∃ a ∈ l, R a b := by
  induction h with
  | nil => cases hb
  | cons hab _ ih =>
    rcases List.mem_cons.1 hb with rfl | hb
    · exact ⟨_, List.mem_cons_self, hab⟩
    · obtain ⟨a, ha, hR⟩ := ih hb
      exact ⟨a, List.mem_cons_of_mem _ ha, hR⟩

theorem exists_of_mapM {f : α → Except ε β} {l : List α} {l' : List β} (h : l.mapM f = .ok l')
    {a : α} (ha : a ∈ l) : ∃ b ∈ l', f a = .ok b := by
  have hflip : List.Forall₂ (fun b a => f a = .ok b) l' l := (mapM_eq_ok.1 h).flip
  exact exists_of_mem_forall₂ hflip ha

theorem exists_of_mem_mapM {f : α → Except ε β} {l : List α} {l' : List β}
    (h : l.mapM f = .ok l') {b : β} (hb : b ∈ l') : ∃ a ∈ l, f a = .ok b :=
  exists_of_mem_forall₂ (R := fun a b => f a = .ok b) (mapM_eq_ok.1 h) hb

theorem mapM_congr {f g : α → Except ε β} {l : List α} (h : ∀ a ∈ l, f a = g a) :
    l.mapM f = l.mapM g := by
  induction l with
  | nil => rfl
  | cons a l ih =>
    rw [List.mapM_cons, List.mapM_cons, h a List.mem_cons_self,
      ih fun b hb => h b (List.mem_cons_of_mem _ hb)]

/-! ## Computations that agree -/

section

variable {α' β' γ : Type} {R : α → α' → Prop} {S : β → β' → Prop}

/-- Both computations fail, with the same error, or neither does, and the results are related. -/
def Agree (R : α → α' → Prop) : Except ε α → Except ε α' → Prop
  | .ok a, .ok a' => R a a'
  | .error e, .error e' => e = e'
  | _, _ => False

theorem Agree.bind {x : Except ε α} {x' : Except ε α'} {f : α → Except ε β}
    {f' : α' → Except ε β'} (h : Agree R x x') (hf : ∀ a a', R a a' → Agree S (f a) (f' a')) :
    Agree S (x >>= f) (x' >>= f') := by
  rcases x with e | a <;> rcases x' with e' | a'
  · exact h
  · exact h.elim
  · exact h.elim
  · exact hf a a' h

/-- The same first part. -/
theorem Agree.bind_self {x : Except ε γ} {f : γ → Except ε β} {f' : γ → Except ε β'}
    (hf : ∀ c, Agree S (f c) (f' c)) : Agree S (x >>= f) (x >>= f') := by
  rcases x with e | c
  · exact rfl
  · exact hf c

theorem Agree.map {x : Except ε α} {x' : Except ε α'} {f : α → β} {f' : α' → β'}
    (h : Agree R x x') (hf : ∀ a a', R a a' → S (f a) (f' a')) : Agree S (f <$> x) (f' <$> x') := by
  rcases x with e | a <;> rcases x' with e' | a'
  · exact h
  · exact h.elim
  · exact h.elim
  · exact hf a a' h

theorem Agree.mono {R' : α → α' → Prop} {x : Except ε α} {x' : Except ε α'} (h : Agree R x x')
    (hR : ∀ a a', R a a' → R' a a') : Agree R' x x' := by
  rcases x with e | a <;> rcases x' with e' | a'
  · exact h
  · exact h.elim
  · exact h.elim
  · exact hR a a' h

theorem Agree.ite {c : Prop} [Decidable c] {x y : Except ε α} {x' y' : Except ε α'}
    (hx : c → Agree R x x') (hy : ¬ c → Agree R y y') :
    Agree R (if c then x else y) (if c then x' else y') := by
  split
  · exact hx ‹_›
  · exact hy ‹_›

/-- Computations that agree at every element of a list agree along it. -/
theorem Agree.foldlM {f : α → γ → Except ε α} {f' : α' → γ → Except ε α'} {l : List γ} {a : α}
    {a' : α'} (h : R a a') (hf : ∀ c ∈ l, ∀ a a', R a a' → Agree R (f a c) (f' a' c)) :
    Agree R (l.foldlM f a) (l.foldlM f' a') := by
  induction l generalizing a a' with
  | nil => exact h
  | cons c l ih =>
    rw [List.foldlM_cons, List.foldlM_cons]
    refine (hf c List.mem_cons_self a a' h).bind fun b b' hb => ?_
    exact ih hb fun c hc => hf c (List.mem_cons_of_mem _ hc)

end

/-! ## Computations that succeed -/

/-- The computation does not fail. -/
def Succeeds (x : Except ε α) : Prop := ∃ a, x = .ok a

namespace Succeeds

theorem ok (a : α) : Succeeds (.ok a : Except ε α) := ⟨a, rfl⟩

theorem bind {x : Except ε α} {f : α → Except ε β} (hx : Succeeds x)
    (hf : ∀ a, x = .ok a → Succeeds (f a)) : Succeeds (x >>= f) := by
  obtain ⟨a, rfl⟩ := hx
  exact hf a rfl

theorem map {x : Except ε α} (hx : Succeeds x) (f : α → β) : Succeeds (f <$> x) := by
  obtain ⟨a, rfl⟩ := hx
  exact ⟨f a, rfl⟩

theorem ite {c : Prop} [Decidable c] {x y : Except ε α} (hx : c → Succeeds x)
    (hy : ¬ c → Succeeds y) : Succeeds (if c then x else y) := by
  split
  · exact hx ‹_›
  · exact hy ‹_›

theorem require {c : Prop} [Decidable c] {e : ε} (h : c) : Succeeds (IntradayBot.require c e) :=
  ⟨(), require_eq_ok.2 h⟩

theorem mapM {f : α → Except ε β} {l : List α} (h : ∀ a ∈ l, Succeeds (f a)) :
    Succeeds (l.mapM f) := by
  induction l with
  | nil => exact ⟨[], rfl⟩
  | cons a l ih =>
    rw [List.forall_mem_cons] at h
    rw [List.mapM_cons]
    exact h.1.bind fun b _ => (ih h.2).bind fun l' _ => ok (b :: l')

end Succeeds

end IntradayBot
