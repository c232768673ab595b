import Mathlib.Logic.Function.Basic
import IntradayBot.Coop.Prog

/-!
# Systems of asynchronous programs

A *system* runs one program for each `i : ι`, all sharing the memory `μ` of
their process, against a remote part `ρ`. Each program is a loop: when its body
ends, it starts again. A step (`Step`) is

* a synchronous segment of one of the programs;
* the answer to the request of one of the programs, from the remote part;
* a program starting its body again (`loop`), or, where the system allows it,
  dropping what it was doing and starting again (`cut`);
* a step of the environment.

The programs hence interleave at every await: what a program read before one
may be stale after it.

Properties that only hold of some runs are stated about the runs whose steps
all meet a condition `ok` on the step and the states around it (`Run`).
`play` runs a system along a list of moves: it is how concrete runs are built.
-/

namespace IntradayBot.Coop

variable {ι μ ρ ε Op : Type} {Val : Op → Type}

/-- The memory of the process and the remote part. -/
structure World (μ ρ : Type) where
  mem : μ
  remote : ρ

/-- A system of programs, one for each `i : ι`. -/
structure System (ι μ ρ ε : Type) {Op : Type} (Val : Op → Type) where
  /-- The body of each program, repeated forever. -/
  body : ι → Prog μ ε Val Unit
  /-- `respond i o w a r`: the request `o` of `i` may be answered by `a` in the
      world `w`, leaving the remote part in `r`. -/
  respond : ι → (o : Op) → World μ ρ → Except ε (Val o) → ρ → Prop
  /-- The steps of the environment. -/
  env : World μ ρ → World μ ρ → Prop
  /-- Whether programs may be cut short. -/
  cuts : Prop

/-- The world, and what remains to be run of each program. -/
structure Config (ι μ ρ ε : Type) {Op : Type} (Val : Op → Type) where
  world : World μ ρ
  prog : ι → Prog μ ε Val Unit

/-- What happens in a step. -/
inductive Label (ι ε : Type) {Op : Type} (Val : Op → Type)
  | sync (i : ι)
  | call (i : ι) (o : Op) (a : Except ε (Val o))
  | loop (i : ι)
  | cut (i : ι)
  | env

variable [DecidableEq ι]

/-- The configuration after `i` has moved. -/
def Config.advance (c : Config ι μ ρ ε Val) (i : ι) (w : World μ ρ) (p : Prog μ ε Val Unit) :
    Config ι μ ρ ε Val :=
  ⟨w, Function.update c.prog i p⟩

variable (S : System ι μ ρ ε Val)

/-- The steps of a system. -/
inductive Step : Config ι μ ρ ε Val → Label ι ε Val → Config ι μ ρ ε Val → Prop
  | sync {c : Config ι μ ρ ε Val} {i : ι} {f : μ → μ} {k : μ → Prog μ ε Val Unit} :
      c.prog i = .sync f k →
      Step c (.sync i) (c.advance i ⟨f c.world.mem, c.world.remote⟩ (k c.world.mem))
  | call {c : Config ι μ ρ ε Val} {i : ι} {o : Op} {k : Except ε (Val o) → Prog μ ε Val Unit}
      {a : Except ε (Val o)} {r : ρ} :
      c.prog i = .call o k → S.respond i o c.world a r →
      Step c (.call i o a) (c.advance i ⟨c.world.mem, r⟩ (k a))
  | loop {c : Config ι μ ρ ε Val} {i : ι} {r : Except ε Unit} :
      c.prog i = .done r → Step c (.loop i) (c.advance i c.world (S.body i))
  | cut {c : Config ι μ ρ ε Val} {i : ι} :
      S.cuts → Step c (.cut i) (c.advance i c.world (S.body i))
  | env {c : Config ι μ ρ ε Val} {w : World μ ρ} :
      S.env c.world w → Step c .env ⟨w, c.prog⟩

/-- A condition on the steps of a run. -/
abbrev Condition (ι μ ρ ε : Type) {Op : Type} (Val : Op → Type) :=
  World μ ρ → Label ι ε Val → World μ ρ → Prop

variable (ok : Condition ι μ ρ ε Val)

/-- The runs whose steps all meet `ok`. -/
inductive Run : Config ι μ ρ ε Val → Config ι μ ρ ε Val → Prop
  | refl {c : Config ι μ ρ ε Val} : Run c c
  | step {c₀ c c' : Config ι μ ρ ε Val} {l : Label ι ε Val} :
      Run c₀ c → Step S c l c' → ok c.world l c'.world → Run c₀ c'

variable {S ok}

theorem Run.trans {c₀ c₁ c₂ : Config ι μ ρ ε Val} (h₁ : Run S ok c₀ c₁) (h₂ : Run S ok c₁ c₂) :
    Run S ok c₀ c₂ := by
  induction h₂ with
  | refl => exact h₁
  | step _ hs hok ih => exact .step ih hs hok

theorem Run.mono {ok' : Condition ι μ ρ ε Val} (hok : ∀ w l w', ok w l w' → ok' w l w')
    {c₀ c : Config ι μ ρ ε Val} (h : Run S ok c₀ c) : Run S ok' c₀ c := by
  induction h with
  | refl => exact .refl
  | step _ hs h ih => exact .step ih hs (hok _ _ _ h)

variable (S) in
/-- The configuration where every program starts. -/
def System.start (w : World μ ρ) : Config ι μ ρ ε Val := ⟨w, S.body⟩

/-! ## Concrete runs -/

/-- A move of a concrete run: of a program, whose requests are answered by
    `answer`, or of the environment. -/
inductive Move (ι μ ρ ε : Type) {Op : Type} (Val : Op → Type)
  | run (i : ι) (answer : (o : Op) → World μ ρ → Option (Except ε (Val o) × ρ))
  | cut (i : ι)
  | env (f : World μ ρ → World μ ρ)

/-- The move is one of the system. -/
def Move.Fair (S : System ι μ ρ ε Val) : Move ι μ ρ ε Val → Prop
  | .run i answer => ∀ o w a r, answer o w = some (a, r) → S.respond i o w a r
  | .cut _ => S.cuts
  | .env f => ∀ w, S.env w (f w)

/-- The steps that a move may be. -/
def Move.Makes : Move ι μ ρ ε Val → Label ι ε Val → Prop
  | .run i _, .sync j | .run i _, .call j _ _ | .run i _, .loop j | .cut i, .cut j => j = i
  | .env _, .env => True
  | _, _ => False

variable (S) in
/-- The configuration after a move: a program takes its next step. -/
def play (c : Config ι μ ρ ε Val) : Move ι μ ρ ε Val → Option (Config ι μ ρ ε Val)
  | .run i answer => match c.prog i with
    | .done _ => some (c.advance i c.world (S.body i))
    | .sync f k => some (c.advance i ⟨f c.world.mem, c.world.remote⟩ (k c.world.mem))
    | .call o k => (answer o c.world).map fun (a, r) => c.advance i ⟨c.world.mem, r⟩ (k a)
  | .cut i => some (c.advance i c.world (S.body i))
  | .env f => some ⟨f c.world, c.prog⟩

variable (S) in
/-- The configuration after a list of moves. -/
def playAll (c : Config ι μ ρ ε Val) : List (Move ι μ ρ ε Val) → Option (Config ι μ ρ ε Val)
  | [] => some c
  | m :: ms => (play S c m).bind fun c' => playAll c' ms

theorem Step.of_play {c c' : Config ι μ ρ ε Val} {m : Move ι μ ρ ε Val} (hm : m.Fair S)
    (h : play S c m = some c') : ∃ l, m.Makes l ∧ Step S c l c' := by
  cases m with
  | run i answer =>
    unfold play at h
    cases hp : c.prog i with
    | done r =>
      obtain rfl : _ = c' := by simpa [hp] using h
      exact ⟨.loop i, rfl, .loop hp⟩
    | sync f k =>
      obtain rfl : _ = c' := by simpa [hp] using h
      exact ⟨.sync i, rfl, .sync hp⟩
    | call o k =>
      simp only [hp] at h
      obtain ⟨⟨a, r⟩, ha, rfl⟩ := Option.map_eq_some_iff.1 h
      exact ⟨.call i o a, rfl, .call hp (hm o _ a r ha)⟩
  | cut i =>
    obtain rfl : _ = c' := Option.some.inj h
    exact ⟨.cut i, rfl, .cut hm⟩
  | env f =>
    obtain rfl : _ = c' := Option.some.inj h
    exact ⟨.env, trivial, .env (hm _)⟩

/-- Fair moves make a run. -/
theorem Run.of_playAll {c c' : Config ι μ ρ ε Val} {ms : List (Move ι μ ρ ε Val)}
    (hm : ∀ m ∈ ms, m.Fair S) (h : playAll S c ms = some c') :
    Run S (fun _ _ _ => True) c c' := by
  induction ms generalizing c with
  | nil => exact Option.some.inj h ▸ .refl
  | cons m ms ih =>
    obtain ⟨c₁, h₁, h₂⟩ := Option.bind_eq_some_iff.1 h
    obtain ⟨l, -, hl⟩ := Step.of_play (hm m List.mem_cons_self) h₁
    exact (Run.step .refl hl trivial).trans (ih (fun m hm' => hm m (List.mem_cons_of_mem _ hm')) h₂)

/-- The move is a step of a program under way: none starts again. -/
def Move.underWay (c : Config ι μ ρ ε Val) : Move ι μ ρ ε Val → Bool
  | .run i _ => match c.prog i with
    | .done _ => false
    | .sync _ _ | .call _ _ => true
  | .cut _ | .env _ => false

variable (S) in
/-- The configuration after a list of moves of programs under way. -/
def playStretch (c : Config ι μ ρ ε Val) : List (Move ι μ ρ ε Val) → Option (Config ι μ ρ ε Val)
  | [] => some c
  | m :: ms => if m.underWay c then (play S c m).bind fun c' => playStretch c' ms else none

/-- Fair moves make a run, which meets what only restricts the other steps. -/
theorem Run.of_playStretch (hsync : ∀ w i w', ok w (.sync i) w')
    (hcall : ∀ w i o a w', ok w (.call i o a) w') {c c' : Config ι μ ρ ε Val}
    {ms : List (Move ι μ ρ ε Val)} (hm : ∀ m ∈ ms, m.Fair S) (h : playStretch S c ms = some c') :
    Run S ok c c' := by
  induction ms generalizing c with
  | nil => exact Option.some.inj h ▸ .refl
  | cons m ms ih =>
    rw [playStretch, Option.ite_none_right_eq_some] at h
    obtain ⟨hw, h⟩ := h
    obtain ⟨c₁, h₁, h₂⟩ := Option.bind_eq_some_iff.1 h
    have hrest := ih (fun m hm' => hm m (List.mem_cons_of_mem _ hm')) h₂
    rcases m with ⟨i, answer⟩ | i | f
    · rcases hp : c.prog i with r | ⟨f, k⟩ | ⟨o, k⟩
      · simp [Move.underWay, hp] at hw
      · obtain rfl : _ = c₁ := by simpa [play, hp] using h₁
        exact (Run.step .refl (.sync hp) (hsync _ _ _)).trans hrest
      · simp only [play, hp] at h₁
        obtain ⟨⟨a, r⟩, ha, rfl⟩ := Option.map_eq_some_iff.1 h₁
        exact (Run.step .refl (.call hp (hm _ List.mem_cons_self o _ a r ha))
          (hcall _ _ _ _ _)).trans hrest
    · exact absurd hw Bool.false_ne_true
    · exact absurd hw Bool.false_ne_true

/-- The step that a move is, where it is one. -/
def Move.label (c : Config ι μ ρ ε Val) : Move ι μ ρ ε Val → Option (Label ι ε Val)
  | .run i answer => match c.prog i with
    | .done _ => some (.loop i)
    | .sync _ _ => some (.sync i)
    | .call o _ => (answer o c.world).map fun a => .call i o a.1
  | .cut i => some (.cut i)
  | .env _ => some .env

theorem Step.label_of_play {c c' : Config ι μ ρ ε Val} {m : Move ι μ ρ ε Val} (hm : m.Fair S)
    (h : play S c m = some c') : ∃ l, m.label c = some l ∧ Step S c l c' := by
  cases m with
  | run i answer =>
    unfold play at h
    cases hp : c.prog i with
    | done r =>
      obtain rfl : _ = c' := by simpa [hp] using h
      exact ⟨.loop i, by simp [Move.label, hp], .loop hp⟩
    | sync f k =>
      obtain rfl : _ = c' := by simpa [hp] using h
      exact ⟨.sync i, by simp [Move.label, hp], .sync hp⟩
    | call o k =>
      simp only [hp] at h
      obtain ⟨⟨a, r⟩, ha, rfl⟩ := Option.map_eq_some_iff.1 h
      exact ⟨.call i o a, by simp [Move.label, hp, ha], .call hp (hm o _ a r ha)⟩
  | cut i =>
    obtain rfl : _ = c' := Option.some.inj h
    exact ⟨.cut i, rfl, .cut hm⟩
  | env f =>
    obtain rfl : _ = c' := Option.some.inj h
    exact ⟨.env, rfl, .env (hm _)⟩

variable (S) in
/-- The configuration after a list of moves whose steps all meet `check`. -/
def playMeeting (check : World μ ρ → Label ι ε Val → World μ ρ → Bool)
    (c : Config ι μ ρ ε Val) : List (Move ι μ ρ ε Val) → Option (Config ι μ ρ ε Val)
  | [] => some c
  | m :: ms => (play S c m).bind fun c' =>
    if (m.label c).all (check c.world · c'.world) then playMeeting check c' ms else none

/-- Fair moves whose steps meet `check` make a run whose steps do. -/
theorem Run.of_playMeeting {check : World μ ρ → Label ι ε Val → World μ ρ → Bool}
    {c c' : Config ι μ ρ ε Val} {ms : List (Move ι μ ρ ε Val)} (hm : ∀ m ∈ ms, m.Fair S)
    (h : playMeeting S check c ms = some c') :
    Run S (fun w l w' => check w l w') c c' := by
  induction ms generalizing c with
  | nil => exact Option.some.inj h ▸ .refl
  | cons m ms ih =>
    obtain ⟨c₁, h₁, h₂⟩ := Option.bind_eq_some_iff.1 h
    obtain ⟨hcheck, h₂⟩ := Option.ite_none_right_eq_some.1 h₂
    obtain ⟨l, hl, hstep⟩ := Step.label_of_play (hm m List.mem_cons_self) h₁
    have hmet : check c.world l c₁.world = true := by simpa [hl] using hcheck
    exact (Run.step .refl hstep hmet).trans (ih (fun m hm' => hm m (List.mem_cons_of_mem _ hm')) h₂)

variable (S) in
/-- The configuration after a list of moves, while the world stays in `p`. -/
def playWithin (p : World μ ρ → Bool) (c : Config ι μ ρ ε Val) :
    List (Move ι μ ρ ε Val) → Option (Config ι μ ρ ε Val)
  | [] => some c
  | m :: ms => (play S c m).bind fun c' => if p c'.world then playWithin p c' ms else none

/-- Fair moves that stay in `p` make a run that does. -/
theorem Run.of_playWithin {p : World μ ρ → Bool} {c c' : Config ι μ ρ ε Val} (hp : p c.world)
    {ms : List (Move ι μ ρ ε Val)} (hm : ∀ m ∈ ms, m.Fair S) (h : playWithin S p c ms = some c') :
    Run S (fun w l w' => p w ∧ p w' ∧ ∃ m ∈ ms, m.Makes l) c c' := by
  induction ms generalizing c with
  | nil => exact Option.some.inj h ▸ .refl
  | cons m ms ih =>
    obtain ⟨c₁, h₁, h₂⟩ := Option.bind_eq_some_iff.1 h
    obtain ⟨hp₁, h₂⟩ := Option.ite_none_right_eq_some.1 h₂
    obtain ⟨l, hml, hl⟩ := Step.of_play (hm m List.mem_cons_self) h₁
    have hrest := ih hp₁ (fun m hm' => hm m (List.mem_cons_of_mem _ hm')) h₂
    exact (Run.step .refl hl ⟨hp, hp₁, m, List.mem_cons_self, hml⟩).trans
      (hrest.mono fun w l w' ⟨hw, hw', m, hm', hml⟩ => ⟨hw, hw', m, List.mem_cons_of_mem _ hm', hml⟩)

end IntradayBot.Coop
