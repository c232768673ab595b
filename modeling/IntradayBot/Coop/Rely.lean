import IntradayBot.Coop.System

/-!
# Reasoning about interleaved programs

The programs of a system are verified one at a time, each against what the
others and the environment may do meanwhile. A *contract* (`Contract`) fixes

* an invariant of the world, kept by every step;
* for every program `i`, what it may *rely* on: how the world may change by the
  steps of the others;
* what every single step does to the world (`step`).

`Safe` follows a program node by node: wherever the others have brought the
world meanwhile, its next step keeps the contract, and it ends as announced.
It composes along the program (`Triple.bind`, `Triple.handle`), with one rule
for each kind of node (`Triple.atomically`, `Triple.request`), and one for the
programs that keep an assertion at every node (`Triple.all`).

Two programs that `i` runs concurrently interleave as well. Each is verified on
its own, against what the other may do beside the others (`Contract.Eases`), and
they run together as they run alone (`Triple.par`).

A program is *calm* (`Calm`) when its own steps are, to the one running it, like
steps of the others. Whatever is stable can be carried along it (`Calm.frame`), and
what another program achieves is not lost by running it alongside
(`Calm.beside_left`, `Calm.beside_right`).

Once all bodies are verified (`Verified`), the contract holds along every run
(`Verified.run`, `Verified.steps`).
-/

namespace IntradayBot.Coop

variable {ι μ ρ ε Op : Type} {Val : Op → Type} {α β : Type}

/-- What the programs of a system guarantee to each other. -/
structure Contract (ι μ ρ : Type) where
  /-- The invariant of the world. -/
  inv : World μ ρ → Prop
  /-- How the world may change by the steps of the programs other than `i`. -/
  rely : ι → World μ ρ → World μ ρ → Prop
  /-- What every step does to the world. -/
  step : World μ ρ → World μ ρ → Prop
  rely_refl : ∀ i w, rely i w w
  rely_trans : ∀ i w₁ w₂ w₃, rely i w₁ w₂ → rely i w₂ w₃ → rely i w₁ w₃
  step_refl : ∀ w, step w w

namespace Contract

variable (C : Contract ι μ ρ)

/-- A step of `i` from `w` to `w'` keeps the contract. -/
structure Keeps (i : ι) (w w' : World μ ρ) : Prop where
  inv : C.inv w'
  rely : ∀ j, j ≠ i → C.rely j w w'
  step : C.step w w'

/-- The others do not spoil `P` for `i`. -/
def Stable (i : ι) (P : World μ ρ → Prop) : Prop :=
  ∀ w w', C.rely i w w' → C.inv w' → P w → P w'

variable {C} {i : ι} {P Q : World μ ρ → Prop}

theorem Stable.and (hP : C.Stable i P) (hQ : C.Stable i Q) : C.Stable i fun w => P w ∧ Q w :=
  fun w w' hr hi h => ⟨hP w w' hr hi h.1, hQ w w' hr hi h.2⟩

theorem Stable.or (hP : C.Stable i P) (hQ : C.Stable i Q) : C.Stable i fun w => P w ∨ Q w :=
  fun w w' hr hi h => h.imp (hP w w' hr hi) (hQ w w' hr hi)

theorem Stable.const (p : Prop) : C.Stable i fun _ => p := fun _ _ _ _ h => h

theorem Stable.exists {γ : Type} {P : γ → World μ ρ → Prop} (h : ∀ a, C.Stable i (P a)) :
    C.Stable i fun w => ∃ a, P a w :=
  fun w w' hr hi ⟨a, ha⟩ => ⟨a, h a w w' hr hi ha⟩

end Contract

variable (S : System ι μ ρ ε Val) (ok : Condition ι μ ρ ε Val) (C : Contract ι μ ρ)

/-- From `w` on, and whatever the others do, all steps of `p`, run by `i`, keep
    the contract, and it returns as announced by `Q` or throws as announced by
    `E`. -/
def Safe (i : ι) : Prog μ ε Val α → (α → World μ ρ → Prop) → (ε → World μ ρ → Prop) →
    World μ ρ → Prop
  | .done (.ok a), Q, _, w => ∀ w', C.rely i w w' → C.inv w' → Q a w'
  | .done (.error e), _, E, w => ∀ w', C.rely i w w' → C.inv w' → E e w'
  | .sync f k, Q, E, w => ∀ w', C.rely i w w' → C.inv w' →
      ok w' (.sync i) ⟨f w'.mem, w'.remote⟩ →
      C.Keeps i w' ⟨f w'.mem, w'.remote⟩ ∧
        Safe i (k w'.mem) Q E ⟨f w'.mem, w'.remote⟩
  | .call o k, Q, E, w => ∀ w', C.rely i w w' → C.inv w' →
      ∀ a r, S.respond i o w' a r → ok w' (.call i o a) ⟨w'.mem, r⟩ →
      C.Keeps i w' ⟨w'.mem, r⟩ ∧ Safe i (k a) Q E ⟨w'.mem, r⟩

/-- From the worlds in `P`, `p` is safe for `i`. -/
def Triple (i : ι) (P : World μ ρ → Prop) (p : Prog μ ε Val α) (Q : α → World μ ρ → Prop)
    (E : ε → World μ ρ → Prop) : Prop :=
  ∀ w, C.inv w → P w → Safe S ok C i p Q E w

variable {S ok C} {i : ι} {P P' : World μ ρ → Prop} {Q Q' : α → World μ ρ → Prop}
  {E E' : ε → World μ ρ → Prop}

/-! ## Safe programs -/

/-- The steps of the others do not spoil safety. -/
theorem Safe.of_rely {p : Prog μ ε Val α} {w w' : World μ ρ} (h : Safe S ok C i p Q E w)
    (hr : C.rely i w w') : Safe S ok C i p Q E w' := by
  cases p with
  | done r => cases r with
    | ok a => exact fun w₂ hr₂ => h w₂ (C.rely_trans _ _ _ _ hr hr₂)
    | error e => exact fun w₂ hr₂ => h w₂ (C.rely_trans _ _ _ _ hr hr₂)
  | sync f k => exact fun w₂ hr₂ => h w₂ (C.rely_trans _ _ _ _ hr hr₂)
  | call o k => exact fun w₂ hr₂ => h w₂ (C.rely_trans _ _ _ _ hr hr₂)

/-- To be safe is to be safe wherever the others bring the world. -/
theorem Safe.of_forall {p : Prog μ ε Val α} {w : World μ ρ}
    (h : ∀ w', C.rely i w w' → C.inv w' → Safe S ok C i p Q E w') : Safe S ok C i p Q E w := by
  cases p with
  | done r => cases r with
    | ok a => exact fun w' hr hi => h w' hr hi w' (C.rely_refl _ _) hi
    | error e => exact fun w' hr hi => h w' hr hi w' (C.rely_refl _ _) hi
  | sync f k => exact fun w' hr hi => h w' hr hi w' (C.rely_refl _ _) hi
  | call o k => exact fun w' hr hi => h w' hr hi w' (C.rely_refl _ _) hi

theorem Safe.mono {p : Prog μ ε Val α} {w : World μ ρ} (h : Safe S ok C i p Q E w)
    (hQ : ∀ a w, C.inv w → Q a w → Q' a w) (hE : ∀ e w, C.inv w → E e w → E' e w) :
    Safe S ok C i p Q' E' w := by
  induction p generalizing w with
  | done r => cases r with
    | ok a => exact fun w' hr hi => hQ a w' hi (h w' hr hi)
    | error e => exact fun w' hr hi => hE e w' hi (h w' hr hi)
  | sync f k ih =>
    intro w' hr hi hok
    obtain ⟨hk, hs⟩ := h w' hr hi hok
    exact ⟨hk, ih _ hs⟩
  | call o k ih =>
    intro w' hr hi a r ha hok
    obtain ⟨hk, hs⟩ := h w' hr hi a r ha hok
    exact ⟨hk, ih _ hs⟩

theorem Safe.bind {p : Prog μ ε Val α} {f : α → Prog μ ε Val β} {R : β → World μ ρ → Prop}
    {w : World μ ρ} (h : Safe S ok C i p Q E w)
    (hf : ∀ a w, C.inv w → Q a w → Safe S ok C i (f a) R E w) :
    Safe S ok C i (p.bind f) R E w := by
  induction p generalizing w with
  | done r => cases r with
    | ok a => exact .of_forall fun w' hr hi => hf a w' hi (h w' hr hi)
    | error e => exact h
  | sync g k ih =>
    intro w' hr hi hok
    obtain ⟨hk, hs⟩ := h w' hr hi hok
    exact ⟨hk, ih _ hs⟩
  | call o k ih =>
    intro w' hr hi a r ha hok
    obtain ⟨hk, hs⟩ := h w' hr hi a r ha hok
    exact ⟨hk, ih _ hs⟩

theorem Safe.handle {p : Prog μ ε Val α} {f : ε → Prog μ ε Val α} {w : World μ ρ}
    (h : Safe S ok C i p Q E w) (hf : ∀ e w, C.inv w → E e w → Safe S ok C i (f e) Q E' w) :
    Safe S ok C i (p.handle f) Q E' w := by
  induction p generalizing w with
  | done r => cases r with
    | ok a => exact h
    | error e => exact .of_forall fun w' hr hi => hf e w' hi (h w' hr hi)
  | sync g k ih =>
    intro w' hr hi hok
    obtain ⟨hk, hs⟩ := h w' hr hi hok
    exact ⟨hk, ih _ hs⟩
  | call o k ih =>
    intro w' hr hi a r ha hok
    obtain ⟨hk, hs⟩ := h w' hr hi a r ha hok
    exact ⟨hk, ih _ hs⟩

theorem Safe.attempt {p : Prog μ ε Val α} {R : Except ε α → World μ ρ → Prop} {w : World μ ρ}
    (h : Safe S ok C i p (fun a => R (.ok a)) (fun e => R (.error e)) w) :
    Safe S ok C i p.attempt R E w := by
  induction p generalizing w with
  | done r => cases r with
    | ok a => exact h
    | error e => exact h
  | sync g k ih =>
    intro w' hr hi hok
    obtain ⟨hk, hs⟩ := h w' hr hi hok
    exact ⟨hk, ih _ hs⟩
  | call o k ih =>
    intro w' hr hi a r ha hok
    obtain ⟨hk, hs⟩ := h w' hr hi a r ha hok
    exact ⟨hk, ih _ hs⟩

/-- Of the system, only its answers matter. -/
theorem Safe.of_respond {S' : System ι μ ρ ε Val} (hS : S'.respond = S.respond)
    {p : Prog μ ε Val α} {w : World μ ρ} (h : Safe S ok C i p Q E w) :
    Safe S' ok C i p Q E w := by
  induction p generalizing w with
  | done r => cases r with
    | ok a => exact h
    | error e => exact h
  | sync f k ih =>
    intro w' hr hi hok
    obtain ⟨hk, hs⟩ := h w' hr hi hok
    exact ⟨hk, ih _ hs⟩
  | call o k ih =>
    intro w' hr hi a r ha hok
    rw [hS] at ha
    obtain ⟨hk, hs⟩ := h w' hr hi a r ha hok
    exact ⟨hk, ih _ hs⟩

/-! ## The rules -/

namespace Triple

theorem of_respond {S' : System ι μ ρ ε Val} (hS : S'.respond = S.respond) {p : Prog μ ε Val α}
    (h : Triple S ok C i P p Q E) : Triple S' ok C i P p Q E :=
  fun w hi hP => (h w hi hP).of_respond hS

theorem conseq {p : Prog μ ε Val α} (h : Triple S ok C i P p Q E)
    (hP : ∀ w, C.inv w → P' w → P w) (hQ : ∀ a w, C.inv w → Q a w → Q' a w)
    (hE : ∀ e w, C.inv w → E e w → E' e w) : Triple S ok C i P' p Q' E' :=
  fun w hi hP' => (h w hi (hP w hi hP')).mono hQ hE

/-- A precondition may be used to choose the proof. -/
theorem of_forall {p : Prog μ ε Val α} (h : ∀ w, C.inv w → P w → Triple S ok C i P p Q E) :
    Triple S ok C i P p Q E :=
  fun w hi hP => h w hi hP w hi hP

theorem done_ok {a : α} (hQ : C.Stable i (Q a)) (h : ∀ w, C.inv w → P w → Q a w) :
    Triple S ok C i P (.done (.ok a)) Q E :=
  fun w hi hP w' hr hi' => hQ w w' hr hi' (h w hi hP)

theorem done_error {e : ε} (hE : C.Stable i (E e)) (h : ∀ w, C.inv w → P w → E e w) :
    Triple S ok C i P (.done (.error e)) Q E :=
  fun w hi hP w' hr hi' => hE w w' hr hi' (h w hi hP)

theorem bind {p : Prog μ ε Val α} {f : α → Prog μ ε Val β} {R : β → World μ ρ → Prop}
    (hp : Triple S ok C i P p Q E) (hf : ∀ a, Triple S ok C i (Q a) (f a) R E) :
    Triple S ok C i P (p.bind f) R E :=
  fun w hi hP => (hp w hi hP).bind hf

theorem handle {p : Prog μ ε Val α} {f : ε → Prog μ ε Val α} (hp : Triple S ok C i P p Q E)
    (hf : ∀ e, Triple S ok C i (E e) (f e) Q E') : Triple S ok C i P (p.handle f) Q E' :=
  fun w hi hP => (hp w hi hP).handle hf

theorem attempt {p : Prog μ ε Val α} {R : Except ε α → World μ ρ → Prop}
    (hp : Triple S ok C i P p (fun a => R (.ok a)) fun e => R (.error e)) :
    Triple S ok C i P p.attempt R E :=
  fun w hi hP => (hp w hi hP).attempt

/-- A synchronous segment. -/
theorem atomically {f : μ → α × μ} (hP : C.Stable i P) (hQ : ∀ a, C.Stable i (Q a))
    (h : ∀ w, C.inv w → P w → ok w (.sync i) ⟨(f w.mem).2, w.remote⟩ →
      C.Keeps i w ⟨(f w.mem).2, w.remote⟩ ∧ Q (f w.mem).1 ⟨(f w.mem).2, w.remote⟩) :
    Triple S ok C i P (Prog.atomically f) Q E := by
  intro w _ hw w' hr hi' hok
  obtain ⟨hk, hq⟩ := h w' hi' (hP w w' hr hi' hw) hok
  exact ⟨hk, fun w₂ hr₂ hi₂ => hQ _ _ w₂ hr₂ hi₂ hq⟩

/-- A synchronous segment that only reads. -/
theorem read {f : μ → α} (hP : C.Stable i P) (hQ : ∀ a, C.Stable i (Q a))
    (h : ∀ w, C.inv w → P w → Q (f w.mem) w) : Triple S ok C i P (Prog.read f) Q E :=
  atomically hP hQ fun w hi hw _ =>
    ⟨⟨hi, fun j _ => C.rely_refl j w, C.step_refl w⟩, h w hi hw⟩

/-- A request. -/
theorem request {o : Op} {Q : Val o → World μ ρ → Prop} (hP : C.Stable i P)
    (hQ : ∀ a, C.Stable i (Q a)) (hE : ∀ e, C.Stable i (E e))
    (h : ∀ w a r, C.inv w → P w → S.respond i o w a r → ok w (.call i o a) ⟨w.mem, r⟩ →
      C.Keeps i w ⟨w.mem, r⟩ ∧
        match a with
        | .ok v => Q v ⟨w.mem, r⟩
        | .error e => E e ⟨w.mem, r⟩) :
    Triple S ok C i P (Prog.request o) Q E := by
  intro w _ hw w' hr hi' a r ha hok
  obtain ⟨hk, hq⟩ := h w' a r hi' (hP w w' hr hi' hw) ha hok
  refine ⟨hk, ?_⟩
  cases a with
  | ok v => exact fun w₂ hr₂ hi₂ => hQ v _ w₂ hr₂ hi₂ hq
  | error e => exact fun w₂ hr₂ hi₂ => hE e _ w₂ hr₂ hi₂ hq

theorem require {c : Prop} [Decidable c] {e : ε} {Q : Unit → World μ ρ → Prop}
    (hQ : C.Stable i (Q ())) (hE : C.Stable i (E e)) (hc : c → ∀ w, C.inv w → P w → Q () w)
    (hn : ¬c → ∀ w, C.inv w → P w → E e w) :
    Triple S ok C i P (Prog.require c e) Q E := by
  unfold Prog.require
  split
  · exact done_ok hQ (hc ‹_›)
  · exact done_error hE (hn ‹_›)

/-- A program whose nodes all keep `P`. -/
theorem all {F : (μ → μ) → Prop} {A : Op → Prop} {p : Prog μ ε Val α} (hp : p.All F A)
    (hP : C.Stable i P)
    (hF : ∀ f w, F f → C.inv w → P w → ok w (.sync i) ⟨f w.mem, w.remote⟩ →
      C.Keeps i w ⟨f w.mem, w.remote⟩ ∧ P ⟨f w.mem, w.remote⟩)
    (hA : ∀ o w a r, A o → C.inv w → P w → S.respond i o w a r →
      ok w (.call i o a) ⟨w.mem, r⟩ → C.Keeps i w ⟨w.mem, r⟩ ∧ P ⟨w.mem, r⟩) :
    Triple S ok C i P p (fun _ => P) fun _ => P := by
  intro w _ hw
  induction p generalizing w with
  | done r => cases r with
    | ok a => exact fun w' hr hi' => hP w w' hr hi' hw
    | error e => exact fun w' hr hi' => hP w w' hr hi' hw
  | sync f k ih =>
    intro w' hr hi' hok
    obtain ⟨hk, hPw⟩ := hF f w' hp.1 hi' (hP w w' hr hi' hw) hok
    exact ⟨hk, ih w'.mem (hp.2 _) _ hk.inv hPw⟩
  | call o k ih =>
    intro w' hr hi' a r ha hok
    obtain ⟨hk, hPw⟩ := hA o w' a r hp.1 hi' (hP w w' hr hi' hw) ha hok
    exact ⟨hk, ih a (hp.2 _) _ hk.inv hPw⟩

end Triple

/-! ## Concurrent programs -/

/-- `C'` is the contract `C`, where `i` may rely on less. -/
structure Contract.Eases (C C' : Contract ι μ ρ) (i : ι) : Prop where
  inv : ∀ w, C'.inv w ↔ C.inv w
  keeps : ∀ w w', C'.Keeps i w w' → C.Keeps i w w'
  rely : ∀ w w', C.rely i w w' → C'.rely i w w'

theorem Contract.Eases.refl (C : Contract ι μ ρ) (i : ι) : C.Eases C i :=
  ⟨fun _ => .rfl, fun _ _ h => h, fun _ _ h => h⟩

theorem Safe.ease {C' : Contract ι μ ρ} (e : C.Eases C' i) {p : Prog μ ε Val α} {w : World μ ρ}
    (h : Safe S ok C' i p Q E w) : Safe S ok C i p Q E w := by
  induction p generalizing w with
  | done r => cases r with
    | ok a => exact fun w' hr hi => h w' (e.rely _ _ hr) ((e.inv _).2 hi)
    | error e' => exact fun w' hr hi => h w' (e.rely _ _ hr) ((e.inv _).2 hi)
  | sync f k ih =>
    intro w' hr hi hok
    obtain ⟨hk, hs⟩ := h w' (e.rely _ _ hr) ((e.inv _).2 hi) hok
    exact ⟨e.keeps _ _ hk, ih _ hs⟩
  | call o k ih =>
    intro w' hr hi a r ha hok
    obtain ⟨hk, hs⟩ := h w' (e.rely _ _ hr) ((e.inv _).2 hi) a r ha hok
    exact ⟨e.keeps _ _ hk, ih _ hs⟩

/-- What is proved relying on less is proved. -/
theorem Triple.ease {C' : Contract ι μ ρ} (e : C.Eases C' i) {p : Prog μ ε Val α}
    (h : Triple S ok C' i P p Q E) : Triple S ok C i P p Q E :=
  fun w hi hw => (h w ((e.inv _).2 hi) hw).ease e

variable (S ok C) in
/-- To `i`, its own segments in `F` and requests in `A` are like steps of the
    others. -/
structure Harmless (i : ι) (F : (μ → μ) → Prop) (A : Op → Prop) : Prop where
  sync : ∀ f w, F f → C.inv w → ok w (.sync i) ⟨f w.mem, w.remote⟩ →
    C.rely i w ⟨f w.mem, w.remote⟩
  call : ∀ o w a r, A o → C.inv w → S.respond i o w a r → ok w (.call i o a) ⟨w.mem, r⟩ →
    C.rely i w ⟨w.mem, r⟩

theorem Harmless.mono {F F' : (μ → μ) → Prop} {A A' : Op → Prop} (h : Harmless S ok C i F A)
    (hF : ∀ f, F' f → F f) (hA : ∀ o, A' o → A o) : Harmless S ok C i F' A' :=
  ⟨fun f w hf => h.sync f w (hF f hf), fun o w a r ho => h.call o w a r (hA o ho)⟩

section par

variable {C₁ C₂ : Contract ι μ ρ} {F₁ F₂ : (μ → μ) → Prop} {A₁ A₂ : Op → Prop}
  {p : Prog μ ε Val α} {q : Prog μ ε Val β} {R : β → World μ ρ → Prop} {toss : Op}
  {heads : Except ε (Val toss) → Bool}

/-- What the others do not spoil can be carried along a harmless program. -/
theorem Safe.frame (e₁ : C.Eases C₁ i) (e₂ : C.Eases C₂ i) (h₂ : Harmless S ok C₂ i F₁ A₁)
    (hp : p.All F₁ A₁) (hP : C₂.Stable i P) {w : World μ ρ} (h : Safe S ok C₁ i p Q E w)
    (hw : P w) : Safe S ok C i p (fun a w => Q a w ∧ P w) (fun e w => E e w ∧ P w) w := by
  induction p generalizing w with
  | done r => cases r with
    | ok a =>
      exact fun w' hr hi => ⟨h w' (e₁.rely _ _ hr) ((e₁.inv _).2 hi),
        hP _ _ (e₂.rely _ _ hr) ((e₂.inv _).2 hi) hw⟩
    | error e =>
      exact fun w' hr hi => ⟨h w' (e₁.rely _ _ hr) ((e₁.inv _).2 hi),
        hP _ _ (e₂.rely _ _ hr) ((e₂.inv _).2 hi) hw⟩
  | sync f k ih =>
    intro w' hr hi hok
    obtain ⟨hk, hs⟩ := h w' (e₁.rely _ _ hr) ((e₁.inv _).2 hi) hok
    have hi₂ := (e₂.inv _).2 hi
    exact ⟨e₁.keeps _ _ hk, ih _ (hp.2 _) hs (hP _ _ (h₂.sync f w' hp.1 hi₂ hok)
      ((e₂.inv _).2 ((e₁.inv _).1 hk.inv)) (hP _ _ (e₂.rely _ _ hr) hi₂ hw))⟩
  | call o k ih =>
    intro w' hr hi a r ha hok
    obtain ⟨hk, hs⟩ := h w' (e₁.rely _ _ hr) ((e₁.inv _).2 hi) a r ha hok
    have hi₂ := (e₂.inv _).2 hi
    exact ⟨e₁.keeps _ _ hk, ih a (hp.2 _) hs (hP _ _ (h₂.call o w' a r hp.1 hi₂ ha hok)
      ((e₂.inv _).2 ((e₁.inv _).1 hk.inv)) (hP _ _ (e₂.rely _ _ hr) hi₂ hw))⟩

/-- The other program has ended: what is left of `p` is joined with how it ended. -/
theorem Safe.join (e₁ : C.Eases C₁ i) (e₂ : C.Eases C₂ i) (h₂ : Harmless S ok C₂ i F₁ A₁)
    (hp : p.All F₁ A₁) (hQ : ∀ a, C₁.Stable i (Q a)) (hR : ∀ b, C₂.Stable i (R b))
    (hE : ∀ e, C₂.Stable i (E e)) {r : Except ε β} {w : World μ ρ}
    (h : Safe S ok C₁ i p Q E w) (hi : C.inv w)
    (hr : Safe S ok C₂ i (.done r : Prog μ ε Val β) R E w) :
    Safe S ok C i (Prog.joinLeft p r) (fun c w => Q c.1 w ∧ R c.2 w) E w ∧
      Safe S ok C i (Prog.joinRight p r) (fun c w => R c.1 w ∧ Q c.2 w) E w := by
  cases r with
  | ok b =>
    have hb := hr w (C₂.rely_refl i w) ((e₂.inv _).2 hi)
    have hp' := (h.frame e₁ e₂ h₂ hp (hR b) hb).mono (fun _ _ _ h => h) fun _ _ _ h => h.1
    have stable : ∀ a, C.Stable i fun w => Q a w ∧ R b w := fun a w w' hr hi h =>
      ⟨hQ a _ _ (e₁.rely _ _ hr) ((e₁.inv _).2 hi) h.1,
        hR b _ _ (e₂.rely _ _ hr) ((e₂.inv _).2 hi) h.2⟩
    exact ⟨hp'.bind fun a w _ hw w' hr hi => stable a w w' hr hi hw,
      hp'.bind fun a w _ hw w' hr hi => (stable a w w' hr hi hw).symm⟩
  | error e =>
    have he := hr w (C₂.rely_refl i w) ((e₂.inv _).2 hi)
    have hp' : Safe S ok C i p.attempt (fun _ => E e) E w :=
      ((h.frame e₁ e₂ h₂ hp (hE e) he).mono (fun _ _ _ h => h.2) fun _ _ _ h => h.2).attempt
    have stable : ∀ w w', C.rely i w w' → C.inv w' → E e w → E e w' := fun w w' hr hi h =>
      hE e _ _ (e₂.rely _ _ hr) ((e₂.inv _).2 hi) h
    exact ⟨hp'.bind fun _ w _ hw w' hr hi => stable w w' hr hi hw,
      hp'.bind fun _ w _ hw w' hr hi => stable w w' hr hi hw⟩

/-- Before each node, the one who tosses says who moves. -/
theorem Safe.parWith (e₁ : C.Eases C₁ i) (e₂ : C.Eases C₂ i) (h₁ : Harmless S ok C₁ i F₂ A₂)
    (ht : ∀ w a r, C.inv w → S.respond i toss w a r → ok w (.call i toss a) ⟨w.mem, r⟩ →
      C.Keeps i w ⟨w.mem, r⟩ ∧ C₁.rely i w ⟨w.mem, r⟩ ∧ C₂.rely i w ⟨w.mem, r⟩)
    {first : Prog μ ε Val β → Prog μ ε Val (α × β)}
    {alone : Except ε β → Prog μ ε Val (α × β)} {T : α × β → World μ ρ → Prop}
    {P : World μ ρ → Prop} (hP : C₁.Stable i P)
    (hf : ∀ q w, q.All F₂ A₂ → C.inv w → P w → Safe S ok C₂ i q R E w →
      Safe S ok C i (first q) T E w)
    (ha : ∀ r w, C.inv w → P w → Safe S ok C₂ i (.done r : Prog μ ε Val β) R E w →
      Safe S ok C i (alone r) T E w)
    (hq : q.All F₂ A₂) {w : World μ ρ} (hi : C.inv w) (hw : P w) (h : Safe S ok C₂ i q R E w) :
    Safe S ok C i (Prog.parWith toss heads first alone q) T E w := by
  induction q generalizing w with
  | done r => exact ha r w hi hw h
  | sync g l ih =>
    intro w₁ hr₁ hi₁ a r₁ ha₁ hok₁
    -- The toss is nobody's step of the two: it is theirs to rely on, before either of them runs.
    obtain ⟨hk, ht₁, ht₂⟩ := ht w₁ a r₁ hi₁ ha₁ hok₁
    have hP₁ := hP _ _ ht₁ ((e₁.inv _).2 hk.inv)
      (hP _ _ (e₁.rely _ _ hr₁) ((e₁.inv _).2 hi₁) hw)
    have hs₁ := (h.of_rely (e₂.rely _ _ hr₁)).of_rely ht₂
    refine ⟨hk, ?_⟩
    dsimp only
    split
    · exact hf _ _ hq hk.inv hP₁ hs₁
    · intro w₂ hr₂ hi₂ hok₂
      obtain ⟨hk₂, hs₂⟩ := hs₁ w₂ (e₂.rely _ _ hr₂) ((e₂.inv _).2 hi₂) hok₂
      have hi₃ := (e₂.inv _).1 hk₂.inv
      exact ⟨e₂.keeps _ _ hk₂, ih _ (hq.2 _) hi₃
        (hP _ _ (h₁.sync g w₂ hq.1 ((e₁.inv _).2 hi₂) hok₂) ((e₁.inv _).2 hi₃)
          (hP _ _ (e₁.rely _ _ hr₂) ((e₁.inv _).2 hi₂) hP₁)) hs₂⟩
  | call o l ih =>
    intro w₁ hr₁ hi₁ a r₁ ha₁ hok₁
    obtain ⟨hk, ht₁, ht₂⟩ := ht w₁ a r₁ hi₁ ha₁ hok₁
    have hP₁ := hP _ _ ht₁ ((e₁.inv _).2 hk.inv)
      (hP _ _ (e₁.rely _ _ hr₁) ((e₁.inv _).2 hi₁) hw)
    have hs₁ := (h.of_rely (e₂.rely _ _ hr₁)).of_rely ht₂
    refine ⟨hk, ?_⟩
    dsimp only
    split
    · exact hf _ _ hq hk.inv hP₁ hs₁
    · intro w₂ hr₂ hi₂ b r₂ ha₂ hok₂
      obtain ⟨hk₂, hs₂⟩ := hs₁ w₂ (e₂.rely _ _ hr₂) ((e₂.inv _).2 hi₂) b r₂ ha₂ hok₂
      have hi₃ := (e₂.inv _).1 hk₂.inv
      exact ⟨e₂.keeps _ _ hk₂, ih b (hq.2 _) hi₃
        (hP _ _ (h₁.call o w₂ b r₂ hq.1 ((e₁.inv _).2 hi₂) ha₂ hok₂) ((e₁.inv _).2 hi₃)
          (hP _ _ (e₁.rely _ _ hr₂) ((e₁.inv _).2 hi₂) hP₁)) hs₂⟩

/-- To be safe is an assertion that the others do not spoil. -/
theorem stable_safe : C.Stable i (Safe S ok C i p Q E) := fun _ _ hr _ h => h.of_rely hr

/-- Programs that are harmless to each other run concurrently as they run alone. -/
theorem Triple.par (e₁ : C.Eases C₁ i) (e₂ : C.Eases C₂ i) (h₁ : Harmless S ok C₁ i F₂ A₂)
    (h₂ : Harmless S ok C₂ i F₁ A₁)
    (ht : ∀ w a r, C.inv w → S.respond i toss w a r → ok w (.call i toss a) ⟨w.mem, r⟩ →
      C.Keeps i w ⟨w.mem, r⟩ ∧ C₁.rely i w ⟨w.mem, r⟩ ∧ C₂.rely i w ⟨w.mem, r⟩)
    (hp : p.All F₁ A₁) (hq : q.All F₂ A₂) (hQ : ∀ a, C₁.Stable i (Q a))
    (hR : ∀ b, C₂.Stable i (R b)) (hE₁ : ∀ e, C₁.Stable i (E e)) (hE₂ : ∀ e, C₂.Stable i (E e))
    (hpP : Triple S ok C₁ i P p Q E) (hqP : Triple S ok C₂ i P q R E) :
    Triple S ok C i P (Prog.par toss heads p q) (fun c w => Q c.1 w ∧ R c.2 w) E := by
  intro w hi hw
  replace hpP := hpP w ((e₁.inv _).2 hi) hw
  replace hqP := hqP w ((e₂.inv _).2 hi) hw
  clear hw
  induction p generalizing q w with
  | done r => exact (hqP.join e₂ e₁ h₁ hq hR hQ hE₁ hi hpP).2
  | sync f k ih =>
    -- Where the left side is next, its step is the rely of the right side, which stays safe.
    refine .parWith e₁ e₂ h₁ ht stable_safe (fun q w hq hi h hs => ?_)
      (fun r w hi h hs => (h.join e₁ e₂ h₂ hp hQ hR hE₂ hi hs).1) hq hi hpP hqP
    intro w₁ hr₁ hi₁ hok₁
    obtain ⟨hk, hs₁⟩ := h w₁ (e₁.rely _ _ hr₁) ((e₁.inv _).2 hi₁) hok₁
    exact ⟨e₁.keeps _ _ hk, ih _ (hp.2 _) hq _ ((e₁.inv _).1 hk.inv) hs₁
      ((hs.of_rely (e₂.rely _ _ hr₁)).of_rely (h₂.sync f w₁ hp.1 ((e₂.inv _).2 hi₁) hok₁))⟩
  | call o k ih =>
    refine .parWith e₁ e₂ h₁ ht stable_safe (fun q w hq hi h hs => ?_)
      (fun r w hi h hs => (h.join e₁ e₂ h₂ hp hQ hR hE₂ hi hs).1) hq hi hpP hqP
    intro w₁ hr₁ hi₁ a r₁ ha₁ hok₁
    obtain ⟨hk, hs₁⟩ := h w₁ (e₁.rely _ _ hr₁) ((e₁.inv _).2 hi₁) a r₁ ha₁ hok₁
    exact ⟨e₁.keeps _ _ hk, ih a (hp.2 _) hq _ ((e₁.inv _).1 hk.inv) hs₁
      ((hs.of_rely (e₂.rely _ _ hr₁)).of_rely (h₂.call o w₁ a r₁ hp.1 ((e₂.inv _).2 hi₁) ha₁ hok₁))⟩

end par

/-! ## Calm programs -/

variable (S ok C) in
/-- Segments in `F` and requests in `A`, made by `i`, keep the contract, and are
    to `i` itself like steps of the others. -/
structure Calm (i : ι) (F : (μ → μ) → Prop) (A : Op → Prop) : Prop where
  sync : ∀ f w, F f → C.inv w → ok w (.sync i) ⟨f w.mem, w.remote⟩ →
    C.Keeps i w ⟨f w.mem, w.remote⟩ ∧ C.rely i w ⟨f w.mem, w.remote⟩
  call : ∀ o w a r, A o → C.inv w → S.respond i o w a r → ok w (.call i o a) ⟨w.mem, r⟩ →
    C.Keeps i w ⟨w.mem, r⟩ ∧ C.rely i w ⟨w.mem, r⟩

namespace Calm

variable {F : (μ → μ) → Prop} {A : Op → Prop} {p : Prog μ ε Val α}

theorem harmless (hc : Calm S ok C i F A) : Harmless S ok C i F A :=
  ⟨fun f w hf hi hok => (hc.sync f w hf hi hok).2, fun o w a r ho hi ha hok =>
    (hc.call o w a r ho hi ha hok).2⟩

/-- A calm program keeps whatever the others do not spoil. -/
theorem triple (hc : Calm S ok C i F A) (hp : p.All F A) (hP : C.Stable i P) :
    Triple S ok C i P p (fun _ => P) fun _ => P :=
  .all hp hP
    (fun f w hf hi hw hok => (hc.sync f w hf hi hok).imp_right fun hr =>
      hP _ _ hr (hc.sync f w hf hi hok).1.inv hw)
    (fun o w a r ho hi hw ha hok => (hc.call o w a r ho hi ha hok).imp_right fun hr =>
      hP _ _ hr (hc.call o w a r ho hi ha hok).1.inv hw)

/-- What the others do not spoil can be carried along a calm program. -/
theorem frame (hc : Calm S ok C i F A) (hp : p.All F A) (hP : C.Stable i P)
    (h : Triple S ok C i P' p Q E) :
    Triple S ok C i (fun w => P' w ∧ P w) p (fun a w => Q a w ∧ P w) fun e w => E e w ∧ P w :=
  fun w hi hw => (h w hi hw.1).frame (.refl C i) (.refl C i) hc.harmless hp hP hw.2

/-- Calm programs run concurrently as they run alone. -/
theorem par {q : Prog μ ε Val β} {R : β → World μ ρ → Prop} {toss : Op}
    {heads : Except ε (Val toss) → Bool} (hc : Calm S ok C i F A) (ht : A toss) (hp : p.All F A)
    (hq : q.All F A) (hQ : ∀ a, C.Stable i (Q a)) (hR : ∀ b, C.Stable i (R b))
    (hE : ∀ e, C.Stable i (E e)) (hpP : Triple S ok C i P p Q E)
    (hqP : Triple S ok C i P q R E) :
    Triple S ok C i P (Prog.par toss heads p q) (fun c w => Q c.1 w ∧ R c.2 w) E :=
  Triple.par (.refl C i) (.refl C i) hc.harmless hc.harmless
    (fun w a r hi ha hok => ⟨(hc.call toss w a r ht hi ha hok).1,
      (hc.call toss w a r ht hi ha hok).2, (hc.call toss w a r ht hi ha hok).2⟩)
    hp hq hQ hR hE hE hpP hqP

end Calm

variable (C) in
/-- The contract `C`, where `i` relies on nothing. -/
def Contract.blind (i : ι) : Contract ι μ ρ where
  inv := C.inv
  rely j w w' := j = i ∨ C.rely j w w'
  step := C.step
  rely_refl j w := .inr (C.rely_refl j w)
  rely_trans j _ _ _ h₁ h₂ := h₁.elim .inl fun h₁ => h₂.imp_right (C.rely_trans j _ _ _ h₁)
  step_refl := C.step_refl

variable (C) in
theorem Contract.blind_eases : C.Eases (C.blind i) i :=
  ⟨fun _ => .rfl, fun _ _ h => ⟨h.inv, fun j hj => (h.rely j hj).resolve_left hj, h.step⟩,
    fun _ _ h => .inr h⟩

/-- Whoever relies on nothing is not harmed. -/
theorem harmless_blind : Harmless S ok (C.blind i) i (fun _ => True) fun _ => True :=
  ⟨fun _ _ _ _ _ => .inl rfl, fun _ _ _ _ _ _ _ _ => .inl rfl⟩

namespace Calm

variable {F : (μ → μ) → Prop} {A : Op → Prop} {p : Prog μ ε Val α} {q : Prog μ ε Val β}
  {R : β → World μ ρ → Prop} {toss : Op} {heads : Except ε (Val toss) → Bool}

/-- A calm program keeps the contract where nothing is relied on. -/
theorem triple_blind (hc : Calm S ok C i F A) (hp : p.All F A) :
    Triple S ok (C.blind i) i P p (fun _ _ => True) fun _ _ => True := by
  have keeps : ∀ {w w'}, C.Keeps i w w' → (C.blind i).Keeps i w w' := fun h =>
    ⟨h.inv, fun j hj => .inr (h.rely j hj), h.step⟩
  refine .conseq (P := fun _ => True) ?_ (fun _ _ _ => trivial) (fun _ _ _ h => h) fun _ _ _ h => h
  exact .all hp (fun _ _ _ _ _ => trivial)
    (fun f w hf hi _ hok => ⟨keeps (hc.sync f w hf hi hok).1, trivial⟩)
    fun o w a r ho hi _ ha hok => ⟨keeps (hc.call o w a r ho hi ha hok).1, trivial⟩

/-- What a program achieves is not lost by a calm one on its left… -/
theorem beside_left (hc : Calm S ok C i F A) (ht : A toss) (hp : p.All F A)
    (hR : ∀ b, C.Stable i (R b)) (hq : Triple S ok C i P q R fun _ _ => True) :
    Triple S ok C i P (Prog.par toss heads p q) (fun c => R c.2) fun _ _ => True :=
  (Triple.par C.blind_eases (.refl C i) harmless_blind hc.harmless
    (fun w a r hi ha hok => ⟨(hc.call toss w a r ht hi ha hok).1, .inl rfl,
      (hc.call toss w a r ht hi ha hok).2⟩)
    hp (.always q) (fun _ _ _ _ _ _ => trivial) hR (fun _ _ _ _ _ _ => trivial)
    (fun _ _ _ _ _ _ => trivial) (hc.triple_blind hp) hq).conseq (fun _ _ h => h)
    (fun _ _ _ h => h.2) fun _ _ _ h => h

/-- … nor by one on its right. -/
theorem beside_right (hc : Calm S ok C i F A) (ht : A toss) (hq : q.All F A)
    (hQ : ∀ a, C.Stable i (Q a)) (hp : Triple S ok C i P p Q fun _ _ => True) :
    Triple S ok C i P (Prog.par toss heads p q) (fun c => Q c.1) fun _ _ => True :=
  (Triple.par (.refl C i) C.blind_eases hc.harmless harmless_blind
    (fun w a r hi ha hok => ⟨(hc.call toss w a r ht hi ha hok).1,
      (hc.call toss w a r ht hi ha hok).2, .inl rfl⟩)
    (.always p) hq hQ (fun _ _ _ _ _ _ => trivial) (fun _ _ _ _ _ _ => trivial)
    (fun _ _ _ _ _ _ => trivial) hp (hc.triple_blind hq)).conseq (fun _ _ h => h)
    (fun _ _ _ h => h.1) fun _ _ _ h => h

end Calm

/-! ## Verified systems -/

variable (S ok C) in
/-- The bodies keep the contract, from `pre` to `post`, and the environment keeps
    it too. A body starts again after the previous one ended, or was cut. -/
structure Verified (pre post : ι → World μ ρ → Prop) : Prop where
  body : ∀ i, Triple S ok C i (pre i) (S.body i) (fun _ => post i) fun _ => post i
  loop : ∀ i w, C.inv w → post i w → ok w (.loop i) w → pre i w
  cut : ∀ i w, C.inv w → S.cuts → ok w (.cut i) w → pre i w
  env : ∀ w w', C.inv w → S.env w w' → ok w .env w' →
    C.inv w' ∧ (∀ j, C.rely j w w') ∧ C.step w w'

namespace Verified

variable {pre post : ι → World μ ρ → Prop}

/-- All programs of the configuration are safe. -/
def Holds (S : System ι μ ρ ε Val) (ok : Condition ι μ ρ ε Val) (C : Contract ι μ ρ)
    (post : ι → World μ ρ → Prop) (c : Config ι μ ρ ε Val) : Prop :=
  C.inv c.world ∧ ∀ i, Safe S ok C i (c.prog i) (fun _ => post i) (fun _ => post i) c.world

theorem holds_start (hv : Verified S ok C pre post) {w : World μ ρ} (hw : C.inv w)
    (hpre : ∀ i, pre i w) : Holds S ok C post (S.start w) :=
  ⟨hw, fun i => hv.body i w hw (hpre i)⟩

variable [DecidableEq ι]

/-- When `i` moves, what is left of it is safe, and the others still are. -/
theorem holds_advance {c : Config ι μ ρ ε Val} (h : Holds S ok C post c) {i : ι}
    {w : World μ ρ} {p : Prog μ ε Val Unit} (hk : C.Keeps i c.world w)
    (hp : Safe S ok C i p (fun _ => post i) (fun _ => post i) w) :
    Holds S ok C post (c.advance i w p) := by
  refine ⟨hk.inv, fun j => ?_⟩
  by_cases hj : j = i
  · subst hj
    simpa [Config.advance] using hp
  · simpa [Config.advance, hj] using (h.2 j).of_rely (hk.rely j hj)

/-- One step keeps all programs safe. -/
theorem holds_step (hv : Verified S ok C pre post) {c c' : Config ι μ ρ ε Val}
    {l : Label ι ε Val} (h : Holds S ok C post c) (hs : Step S c l c')
    (hok : ok c.world l c'.world) : Holds S ok C post c' ∧ C.step c.world c'.world := by
  cases hs with
  | @sync i f k hp =>
    have := h.2 i
    rw [hp] at this
    obtain ⟨hk, hs⟩ := this _ (C.rely_refl _ _) h.1 hok
    exact ⟨holds_advance h hk hs, hk.step⟩
  | @call i o k a r hp hr =>
    have := h.2 i
    rw [hp] at this
    obtain ⟨hk, hs⟩ := this _ (C.rely_refl _ _) h.1 a r hr hok
    exact ⟨holds_advance h hk hs, hk.step⟩
  | @loop i r hp =>
    -- A finished turn gives the postcondition, whichever way it ended, and the next one starts
    -- from it.
    have hpost : post i c.world := by
      have := h.2 i
      rw [hp] at this
      cases r with
      | ok a => exact this _ (C.rely_refl _ _) h.1
      | error e => exact this _ (C.rely_refl _ _) h.1
    exact ⟨holds_advance h ⟨h.1, fun j _ => C.rely_refl j _, C.step_refl _⟩
      (hv.body i _ h.1 (hv.loop i _ h.1 hpost hok)), C.step_refl _⟩
  | @cut i hc =>
    exact ⟨holds_advance h ⟨h.1, fun j _ => C.rely_refl j _, C.step_refl _⟩
      (hv.body i _ h.1 (hv.cut i _ h.1 hc hok)), C.step_refl _⟩
  | env he =>
    obtain ⟨hi, hr, hs⟩ := hv.env _ _ h.1 he hok
    exact ⟨⟨hi, fun j => (h.2 j).of_rely (hr j)⟩, hs⟩

/-- Along a run, all programs stay safe. -/
theorem holds_run (hv : Verified S ok C pre post) {c c' : Config ι μ ρ ε Val}
    (h : Holds S ok C post c) (hr : Run S ok c c') : Holds S ok C post c' := by
  induction hr with
  | refl => exact h
  | step _ hs hok ih => exact (hv.holds_step ih hs hok).1

/-- The invariant holds along every run. -/
theorem run (hv : Verified S ok C pre post) {w : World μ ρ} (hw : C.inv w)
    (hpre : ∀ i, pre i w) {c : Config ι μ ρ ε Val} (hr : Run S ok (S.start w) c) :
    C.inv c.world :=
  (hv.holds_run (hv.holds_start hw hpre) hr).1

/-- Every step of a run does what the contract says of steps. -/
theorem step (hv : Verified S ok C pre post) {w : World μ ρ} (hw : C.inv w)
    (hpre : ∀ i, pre i w) {c c' : Config ι μ ρ ε Val} {l : Label ι ε Val}
    (hr : Run S ok (S.start w) c) (hs : Step S c l c') (hok : ok c.world l c'.world) :
    C.step c.world c'.world :=
  (hv.holds_step (hv.holds_run (hv.holds_start hw hpre) hr) hs hok).2

/-- So does every part of a run, where it composes. -/
theorem steps (hv : Verified S ok C pre post) {w : World μ ρ} (hw : C.inv w)
    (hpre : ∀ i, pre i w) (trans : ∀ w₁ w₂ w₃, C.step w₁ w₂ → C.step w₂ w₃ → C.step w₁ w₃)
    {c₁ c₂ : Config ι μ ρ ε Val} (h₁ : Run S ok (S.start w) c₁) (h₂ : Run S ok c₁ c₂) :
    C.step c₁.world c₂.world := by
  induction h₂ with
  | refl => exact C.step_refl _
  | step h hs hok ih => exact trans _ _ _ ih (hv.step hw hpre (h₁.trans h) hs hok)

end Verified

end IntradayBot.Coop
