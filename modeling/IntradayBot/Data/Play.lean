import Mathlib.Logic.Relation

/-!
# Systems that are played

A system is played event by event: `play s l` is the state after the event `l`, where it can
happen. Its runs by events of a kind are the chains of such steps (`RunsBy`). What each of these
steps keeps, every run keeps (`RunsBy.keeps`), and a run of given events can be computed
(`RunsBy.of_playAll`).
-/

namespace IntradayBot.Play

variable {σ ℓ : Type} (play : σ → ℓ → Option σ) (kind : σ → ℓ → Prop)

/-- A step by an event of a kind. -/
def StepBy (s s' : σ) : Prop := ∃ l, kind s l ∧ play s l = some s'

/-- A run by events of a kind. -/
abbrev RunsBy : σ → σ → Prop := Relation.ReflTransGen (StepBy play kind)

/-- A run by any events. -/
abbrev Runs : σ → σ → Prop := RunsBy play fun _ _ => True

/-- The state after some events, where they can happen. -/
def playAll : σ → List ℓ → Option σ
  | s, [] => some s
  | s, l :: ls => (play s l).bind fun s' => playAll s' ls

/-- Each event is of the kind when it happens. -/
def AllBy : σ → List ℓ → Prop
  | _, [] => True
  | s, l :: ls => kind s l ∧ ∀ s' ∈ play s l, AllBy s' ls

instance decidableAllBy [∀ s l, Decidable (kind s l)] :
    ∀ (s : σ) (ls : List ℓ), Decidable (AllBy play kind s ls)
  | _, [] => inferInstanceAs (Decidable True)
  | _, _ :: ls =>
    have := fun s' => decidableAllBy s' ls
    inferInstanceAs (Decidable (_ ∧ ∀ s' ∈ _, _))

variable {play kind} {s s' : σ}

theorem RunsBy.keeps {I : σ → Prop} (hr : RunsBy play kind s s')
    (hstep : ∀ {s l s'}, I s → kind s l → play s l = some s' → I s') (h : I s) : I s' := by
  induction hr with
  | refl => exact h
  | tail _ hs ih =>
    obtain ⟨l, hkind, hplay⟩ := hs
    exact hstep ih hkind hplay

theorem RunsBy.of_playAll {ls : List ℓ} (hall : AllBy play kind s ls)
    (h : playAll play s ls = some s') : RunsBy play kind s s' := by
  induction ls generalizing s with
  | nil => exact Option.some.inj h ▸ .refl
  | cons l ls ih =>
    obtain ⟨s₁, hplay, hrest⟩ := Option.bind_eq_some_iff.1 h
    exact .head ⟨l, hall.1, hplay⟩ (ih (hall.2 s₁ hplay) hrest)

theorem allBy_true (s : σ) (ls : List ℓ) : AllBy play (fun _ _ => True) s ls := by
  induction ls generalizing s with
  | nil => trivial
  | cons l ls ih => exact ⟨trivial, fun s' _ => ih s'⟩

theorem Runs.of_playAll {ls : List ℓ} (h : playAll play s ls = some s') : Runs play s s' :=
  RunsBy.of_playAll (allBy_true s ls) h

end IntradayBot.Play
