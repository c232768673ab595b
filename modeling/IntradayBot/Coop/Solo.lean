import IntradayBot.Coop.Rely

/-!
# A program alone in its system

A system of a single program, whose others are the environment. What the program
relies on is then a relation `R` that the environment keeps to, and its contract
(`Contract.alone`) is an invariant and such a relation.

Requests that the program makes concurrently are verified each against a wider
relation, which leaves to the other requests what these may change
(`Triple.par_alone`).
-/

namespace IntradayBot.Coop

variable {μ ρ ε Op : Type} {Val : Op → Type} {α β : Type}

/-- How a world may change, step after step. -/
structure Drift (μ ρ : Type) where
  rel : World μ ρ → World μ ρ → Prop
  refl : ∀ w, rel w w
  trans : ∀ w₁ w₂ w₃, rel w₁ w₂ → rel w₂ w₃ → rel w₁ w₃

/-- The worlds that agree on what `view` shows. -/
def Drift.same {γ : Type} (view : World μ ρ → γ) : Drift μ ρ where
  rel w w' := view w' = view w
  refl _ := rfl
  trans _ _ _ h₁ h₂ := h₂.trans h₁

/-- The contract of a program alone: an invariant, and how the world may change
    meanwhile. -/
def Contract.alone (inv : World μ ρ → Prop) (R : Drift μ ρ) : Contract Unit μ ρ where
  inv := inv
  rely _ := R.rel
  step _ _ := True
  rely_refl _ := R.refl
  rely_trans _ := R.trans
  step_refl _ := trivial

namespace Contract

variable {inv : World μ ρ → Prop} {R R' : Drift μ ρ} {w w' : World μ ρ} {P : World μ ρ → Prop}

/-- The program alone keeps its contract by keeping the invariant. -/
theorem alone_keeps : (alone inv R).Keeps () w w' ↔ inv w' :=
  ⟨fun h => h.inv, fun h => ⟨h, fun _ hj => absurd rfl hj, trivial⟩⟩

theorem alone_eases (h : ∀ w w', R.rel w w' → R'.rel w w') :
    (alone inv R).Eases (alone inv R') () :=
  ⟨fun _ => .rfl, fun _ _ hk => alone_keeps.2 hk.inv, h⟩

/-- What only depends on what is shown is not spoilt. -/
theorem stable_same {γ : Type} {view : World μ ρ → γ} (Q : γ → Prop) :
    (alone inv (.same view)).Stable () fun w => Q (view w) :=
  fun w w' (hr : view w' = view w) _ hw => by
    change Q (view w')
    rwa [hr]

end Contract

section

variable {S : System Unit μ ρ ε Val} {ok : Condition Unit μ ρ ε Val} {inv : World μ ρ → Prop}
  {R R₁ R₂ : Drift μ ρ} {P : World μ ρ → Prop} {Q : α → World μ ρ → Prop} {E : ε → World μ ρ → Prop}
  {T : β → World μ ρ → Prop} {p : Prog μ ε Val α} {q : Prog μ ε Val β} {toss : Op}
  {heads : Except ε (Val toss) → Bool} {F₁ F₂ : (μ → μ) → Prop} {A₁ A₂ : Op → Prop}

/-- Two programs run concurrently, each of them relying on no more than what the
    other leaves alone. -/
theorem Triple.par_alone (h₁ : ∀ w w', R.rel w w' → R₁.rel w w')
    (h₂ : ∀ w w', R.rel w w' → R₂.rel w w')
    (ht : ∀ w a r, inv w → S.respond () toss w a r → inv ⟨w.mem, r⟩ ∧ R.rel w ⟨w.mem, r⟩)
    (hh₁ : Harmless S ok (.alone inv R₁) () F₂ A₂) (hh₂ : Harmless S ok (.alone inv R₂) () F₁ A₁)
    (hp : p.All F₁ A₁) (hq : q.All F₂ A₂) (hQ : ∀ a, (Contract.alone inv R₁).Stable () (Q a))
    (hT : ∀ b, (Contract.alone inv R₂).Stable () (T b))
    (hE₁ : ∀ e, (Contract.alone inv R₁).Stable () (E e))
    (hE₂ : ∀ e, (Contract.alone inv R₂).Stable () (E e))
    (hpP : Triple S ok (.alone inv R₁) () P p Q E) (hqP : Triple S ok (.alone inv R₂) () P q T E) :
    Triple S ok (.alone inv R) () P (Prog.par toss heads p q) (fun c w => Q c.1 w ∧ T c.2 w) E :=
  Triple.par (Contract.alone_eases h₁) (Contract.alone_eases h₂) hh₁ hh₂
    (fun w a r hi ha _ => by
      obtain ⟨hi', hr⟩ := ht w a r hi ha
      exact ⟨Contract.alone_keeps.2 hi', h₁ _ _ hr, h₂ _ _ hr⟩)
    hp hq hQ hT hE₁ hE₂ hpP hqP

/-- A program alone is verified along all its turns. -/
theorem Verified.alone {pre post : World μ ρ → Prop}
    (body : Triple S ok (.alone inv R) () pre (S.body ()) (fun _ => post) fun _ => post)
    (loop : ∀ w, inv w → post w → ok w (.loop ()) w → pre w)
    (cut : ∀ w, inv w → S.cuts → ok w (.cut ()) w → pre w)
    (env : ∀ w w', inv w → S.env w w' → ok w .env w' → inv w' ∧ R.rel w w') :
    Verified S ok (.alone inv R) (fun _ => pre) (fun _ => post) where
  body _ := body
  loop _ := loop
  cut _ := cut
  env w w' hi he hok := ⟨(env w w' hi he hok).1, fun _ => (env w w' hi he hok).2, trivial⟩

end

end IntradayBot.Coop
