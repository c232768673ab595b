import IntradayBot.Coop.System

/-!
# Programs run alone

`Prog.eval` runs a program to its end with no other one interleaved, against a
remote part whose answers are a function of the world.
-/

namespace IntradayBot.Coop

namespace Prog

variable {μ ρ ε Op : Type} {Val : Op → Type} {α β : Type}

/-- How a program run alone ends, from a world, when its requests are answered
    by `answer`. -/
def eval (answer : (o : Op) → World μ ρ → Except ε (Val o) × ρ) :
    Prog μ ε Val α → World μ ρ → Except ε α × World μ ρ
  | .done r, w => (r, w)
  | .sync f k, w => eval answer (k w.mem) ⟨f w.mem, w.remote⟩
  | .call o k, w => eval answer (k (answer o w).1) ⟨w.mem, (answer o w).2⟩

variable (answer : (o : Op) → World μ ρ → Except ε (Val o) × ρ) (w : World μ ρ)

@[simp] theorem eval_done (r : Except ε α) :
    (done r : Prog μ ε Val α).eval answer w = (r, w) := rfl

@[simp] theorem eval_request (o : Op) :
    (request o : Prog μ ε Val (Val o)).eval answer w =
      ((answer o w).1, ⟨w.mem, (answer o w).2⟩) := rfl

@[simp] theorem eval_atomically (f : μ → α × μ) :
    (atomically f : Prog μ ε Val α).eval answer w =
      (.ok (f w.mem).1, ⟨(f w.mem).2, w.remote⟩) := rfl

@[simp] theorem eval_read (f : μ → α) :
    (read f : Prog μ ε Val α).eval answer w = (.ok (f w.mem), w) := rfl

@[simp] theorem eval_modify (f : μ → μ) :
    (modify f : Prog μ ε Val Unit).eval answer w = (.ok (), ⟨f w.mem, w.remote⟩) := rfl

theorem eval_bind (p : Prog μ ε Val α) (f : α → Prog μ ε Val β) :
    (p.bind f).eval answer w = match p.eval answer w with
      | (.ok a, w') => (f a).eval answer w'
      | (.error e, w') => (.error e, w') := by
  induction p generalizing w with
  | done r => cases r <;> rfl
  | sync g k ih => exact ih _ _
  | call o k ih => exact ih _ _

/-- A value computed at the end leaves the world alone. -/
theorem eval_bind_done (p : Prog μ ε Val α) (f : α → Except ε β) :
    ((p.bind fun a => done (f a)).eval answer w).2 = (p.eval answer w).2 := by
  rw [eval_bind]
  rcases p.eval answer w with ⟨_ | _, _⟩ <;> rfl

theorem eval_handle (p : Prog μ ε Val α) (h : ε → Prog μ ε Val α) :
    (p.handle h).eval answer w = match p.eval answer w with
      | (.ok a, w') => (.ok a, w')
      | (.error e, w') => (h e).eval answer w' := by
  induction p generalizing w with
  | done r => cases r <;> rfl
  | sync g k ih => exact ih _ _
  | call o k ih => exact ih _ _

/-- What all nodes of a program keep, its run keeps. -/
theorem All.eval {F : (μ → μ) → Prop} {A : Op → Prop} {p : Prog μ ε Val α} (hp : p.All F A)
    {P : World μ ρ → Prop} (hF : ∀ f w, F f → P w → P ⟨f w.mem, w.remote⟩)
    (hA : ∀ o w, A o → P w → P ⟨w.mem, (answer o w).2⟩) (hw : P w) :
    P (p.eval answer w).2 := by
  induction p generalizing w with
  | done r => exact hw
  | sync f k ih => exact ih _ _ (hp.2 _) (hF _ _ hp.1 hw)
  | call o k ih => exact ih _ _ (hp.2 _) (hA _ _ hp.1 hw)

end Prog

end IntradayBot.Coop
