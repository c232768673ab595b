import IntradayBot.Coop.Rely

/-!
# Contracts that add to a contract

A program that was verified against a contract may be verified against one that adds to it without
its proof being done again: of each of its steps, it is then *granted* that it keeps the first
contract (`Granting`), and only what is added is left to prove. The two proofs together verify the
program (`Triple.granted`).
-/

namespace IntradayBot.Coop

variable {ι μ ρ ε Op : Type} {Val : Op → Type} {α : Type}

/-- The step is one of `i`. -/
def Label.By (i : ι) : Label ι ε Val → Prop
  | .sync j | .call j _ _ => j = i
  | .loop _ | .cut _ | .env => False

/-- The steps of the programs are known to keep `C`. -/
def Granting (ok : Condition ι μ ρ ε Val) (C : Contract ι μ ρ) : Condition ι μ ρ ε Val :=
  fun w l w' => ok w l w' ∧ ∀ i, l.By i → C.Keeps i w w'

/-- To `i`, the contract `C'` says all that `C` says. -/
structure Contract.Adds (C C' : Contract ι μ ρ) (i : ι) : Prop where
  inv : ∀ w, C'.inv w → C.inv w
  rely : ∀ w w', C'.rely i w w' → C.rely i w w'

variable {S : System ι μ ρ ε Val} {ok : Condition ι μ ρ ε Val} {C C' : Contract ι μ ρ} {i : ι}
  {P P' : World μ ρ → Prop} {Q Q' : α → World μ ρ → Prop} {E E' : ε → World μ ρ → Prop}

theorem Safe.granted (hadds : C.Adds C' i) {p : Prog μ ε Val α} {w : World μ ρ}
    (h : Safe S ok C i p Q E w) (h' : Safe S (Granting ok C) C' i p Q' E' w) :
    Safe S ok C' i p (fun a w => Q a w ∧ Q' a w) (fun e w => E e w ∧ E' e w) w := by
  induction p generalizing w with
  | done r => cases r with
    | ok a => exact fun w' hr hi => ⟨h w' (hadds.rely _ _ hr) (hadds.inv _ hi), h' w' hr hi⟩
    | error e => exact fun w' hr hi => ⟨h w' (hadds.rely _ _ hr) (hadds.inv _ hi), h' w' hr hi⟩
  | sync f k ih =>
    intro w' hr hi hok
    obtain ⟨hk, hs⟩ := h w' (hadds.rely _ _ hr) (hadds.inv _ hi) hok
    obtain ⟨hk', hs'⟩ := h' w' hr hi ⟨hok, fun _ hj => hj ▸ hk⟩
    exact ⟨hk', ih _ hs hs'⟩
  | call o k ih =>
    intro w' hr hi a r ha hok
    obtain ⟨hk, hs⟩ := h w' (hadds.rely _ _ hr) (hadds.inv _ hi) a r ha hok
    obtain ⟨hk', hs'⟩ := h' w' hr hi a r ha ⟨hok, fun _ hj => hj ▸ hk⟩
    exact ⟨hk', ih _ hs hs'⟩

/-- What was proved of a program against a contract is granted to its proof against one that adds
    to it. -/
theorem Triple.granted (hadds : C.Adds C' i) {p : Prog μ ε Val α}
    (h : Triple S ok C i P p Q E) (h' : Triple S (Granting ok C) C' i P' p Q' E') :
    Triple S ok C' i (fun w => P w ∧ P' w) p (fun a w => Q a w ∧ Q' a w)
      fun e w => E e w ∧ E' e w :=
  fun w hi hw => (h w (hadds.inv w hi) hw.1).granted hadds (h' w hi hw.2)

/-- What is calm is calm where more is known of the steps. -/
theorem Calm.granting {F : (μ → μ) → Prop} {A : Op → Prop} (h : Calm S ok C' i F A) :
    Calm S (Granting ok C) C' i F A :=
  ⟨fun f w hf hi hok => h.sync f w hf hi hok.1, fun o w a r ho hi ha hok =>
    h.call o w a r ho hi ha hok.1⟩

end IntradayBot.Coop
