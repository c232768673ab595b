/-!
# Asynchronous programs

A *cooperative* program runs alone between two of its awaits. It is a tree
(`Prog`) whose nodes are

* synchronous segments (`sync`), which read and rewrite the memory that the
  program shares with the other programs of its process;
* requests to the outside (`call`), each answered with a value or an error: the
  awaits of the program, at which the others may run;
* ends (`done`), with the value returned or the error thrown.

Programs sequence (`Prog.bind`), and an error thrown skips to the handler
around it (`Prog.handle`). A program says nothing about how its requests are
answered: that is the business of the system running it (`Coop.System`).

Programs also run concurrently (`Prog.par`): which one moves next is not theirs
to choose, it is asked from the outside.

`Prog.All` describes what a program may do, node by node, whatever it is
answered. It is how a long program that never touches what a proof is about is
disposed of in one go.
-/

namespace IntradayBot.Coop

/-- A program over the memory `μ`, whose request `o` is answered by a `Val o`
    or an error in `ε`. -/
inductive Prog (μ ε : Type) {Op : Type} (Val : Op → Type) (α : Type) : Type
  | done (r : Except ε α)
  | sync (f : μ → μ) (k : μ → Prog μ ε Val α)
  | call (o : Op) (k : Except ε (Val o) → Prog μ ε Val α)

namespace Prog

variable {μ ε Op : Type} {Val : Op → Type} {α β γ : Type}

/-- The program returning `a`. -/
def ret (a : α) : Prog μ ε Val α := .done (.ok a)

/-- The program throwing `e`. -/
def throw (e : ε) : Prog μ ε Val α := .done (.error e)

/-- First `p`, then `f` of what it returns. -/
def bind : Prog μ ε Val α → (α → Prog μ ε Val β) → Prog μ ε Val β
  | .done (.ok a), f => f a
  | .done (.error e), _ => .done (.error e)
  | .sync g k, f => .sync g fun m => (k m).bind f
  | .call o k, f => .call o fun a => (k a).bind f

/-- `p`, with the errors it throws handled by `h`. -/
def handle : Prog μ ε Val α → (ε → Prog μ ε Val α) → Prog μ ε Val α
  | .done (.ok a), _ => .done (.ok a)
  | .done (.error e), h => h e
  | .sync g k, h => .sync g fun m => (k m).handle h
  | .call o k, h => .call o fun a => (k a).handle h

/-- The outcome of `p`, value or error, as a value. -/
def attempt : Prog μ ε Val α → Prog μ ε Val (Except ε α)
  | .done r => .done (.ok r)
  | .sync g k => .sync g fun m => (k m).attempt
  | .call o k => .call o fun a => (k a).attempt

section par

variable (toss : Op) (heads : Except ε (Val toss) → Bool)

/-- The nodes of a program interleaved with another one, whose next node is
    taken by `first`, and which is left alone by `alone`. -/
def parWith (first : Prog μ ε Val β → Prog μ ε Val (α × β))
    (alone : Except ε β → Prog μ ε Val (α × β)) : Prog μ ε Val β → Prog μ ε Val (α × β)
  | .done r => alone r
  | .sync g l => .call toss fun a =>
    if heads a then first (.sync g l) else .sync g fun m => parWith first alone (l m)
  | .call o l => .call toss fun a =>
    if heads a then first (.call o l) else .call o fun b => parWith first alone (l b)

/-- What is left of `p` once the program run along with it ended with `r`. The
    first error is thrown, after both have ended. -/
def joinLeft (p : Prog μ ε Val α) : Except ε β → Prog μ ε Val (α × β)
  | .ok b => p.bind fun a => ret (a, b)
  | .error e => p.attempt.bind fun _ => throw e

/-- What is left of `q` once the program run along with it ended with `r`. -/
def joinRight (q : Prog μ ε Val β) : Except ε α → Prog μ ε Val (α × β)
  | .ok a => q.bind fun b => ret (a, b)
  | .error e => q.attempt.bind fun _ => throw e

/-- `p` and `q` run concurrently: before each node, the answer to `toss` says
    which one moves. -/
def par : Prog μ ε Val α → Prog μ ε Val β → Prog μ ε Val (α × β)
  | .done r, q => joinRight q r
  | .sync f k, q =>
    parWith toss heads (fun q' => .sync f fun m => par (k m) q') (joinLeft (.sync f k)) q
  | .call o k, q =>
    parWith toss heads (fun q' => .call o fun a => par (k a) q') (joinLeft (.call o k)) q

end par

instance : Monad (Prog μ ε Val) where
  pure := ret
  bind := bind

instance : MonadExceptOf ε (Prog μ ε Val) where
  throw := throw
  tryCatch := handle

/-- A synchronous segment: `f` gives its value and the memory it leaves. -/
def atomically (f : μ → α × μ) : Prog μ ε Val α :=
  .sync (fun m => (f m).2) fun m => ret (f m).1

/-- A synchronous segment that only reads. -/
def read (f : μ → α) : Prog μ ε Val α := atomically fun m => (f m, m)

/-- A synchronous segment that only writes. -/
def modify (f : μ → μ) : Prog μ ε Val Unit := atomically fun m => ((), f m)

/-- The request `o`. -/
def request (o : Op) : Prog μ ε Val (Val o) := .call o .done

/-- Throws `e` unless `c`. -/
def require (c : Prop) [Decidable c] (e : ε) : Prog μ ε Val Unit :=
  if c then ret () else throw e

/-- What a computation outside the program gave: its value, or its error thrown. -/
def ofExcept (r : Except ε α) : Prog μ ε Val α := .done r

@[simp] theorem pure_eq (a : α) : (pure a : Prog μ ε Val α) = .done (.ok a) := rfl

@[simp] theorem bind_eq (p : Prog μ ε Val α) (f : α → Prog μ ε Val β) : p >>= f = p.bind f := rfl

@[simp] theorem throw_eq (e : ε) :
    (MonadExcept.throw e : Prog μ ε Val α) = .done (.error e) := rfl

@[simp] theorem tryCatch_eq (p : Prog μ ε Val α) (h : ε → Prog μ ε Val α) :
    tryCatch p h = p.handle h := rfl

/-! ## What a program may do -/

/-- All synchronous segments of `p` rewrite the memory as allowed by `F`, and
    all its requests are among `A`. -/
def All (F : (μ → μ) → Prop) (A : Op → Prop) : Prog μ ε Val α → Prop
  | .done _ => True
  | .sync f k => F f ∧ ∀ m, All F A (k m)
  | .call o k => A o ∧ ∀ a, All F A (k a)

variable {F F' : (μ → μ) → Prop} {A A' : Op → Prop}

theorem All.ret (a : α) : All F A (ret a : Prog μ ε Val α) := trivial

theorem All.throw (e : ε) : All F A (throw e : Prog μ ε Val α) := trivial

theorem All.ofExcept (r : Except ε α) : All F A (ofExcept r : Prog μ ε Val α) := trivial

theorem All.request {o : Op} (h : A o) : All F A (request o : Prog μ ε Val (Val o)) :=
  ⟨h, fun _ => trivial⟩

theorem All.atomically {f : μ → α × μ} (h : F fun m => (f m).2) :
    All F A (atomically f : Prog μ ε Val α) := ⟨h, fun _ => trivial⟩

theorem All.read (f : μ → α) (h : F fun m => m) : All F A (read f : Prog μ ε Val α) :=
  All.atomically h

theorem All.modify {f : μ → μ} (h : F f) : All F A (modify f : Prog μ ε Val Unit) :=
  All.atomically h

theorem All.require (c : Prop) [Decidable c] (e : ε) :
    All F A (require c e : Prog μ ε Val Unit) := by
  unfold Prog.require
  split <;> trivial

theorem All.bind {p : Prog μ ε Val α} {f : α → Prog μ ε Val β} (hp : All F A p)
    (hf : ∀ a, All F A (f a)) : All F A (p.bind f) := by
  induction p with
  | done r => cases r with
    | ok a => exact hf a
    | error e => trivial
  | sync g k ih => exact ⟨hp.1, fun m => ih m (hp.2 m)⟩
  | call o k ih => exact ⟨hp.1, fun a => ih a (hp.2 a)⟩

theorem All.handle {p : Prog μ ε Val α} {h : ε → Prog μ ε Val α} (hp : All F A p)
    (hh : ∀ e, All F A (h e)) : All F A (p.handle h) := by
  induction p with
  | done r => cases r with
    | ok a => trivial
    | error e => exact hh e
  | sync g k ih => exact ⟨hp.1, fun m => ih m (hp.2 m)⟩
  | call o k ih => exact ⟨hp.1, fun a => ih a (hp.2 a)⟩

theorem All.attempt {p : Prog μ ε Val α} (hp : All F A p) : All F A p.attempt := by
  induction p with
  | done r => trivial
  | sync g k ih => exact ⟨hp.1, fun m => ih m (hp.2 m)⟩
  | call o k ih => exact ⟨hp.1, fun a => ih a (hp.2 a)⟩

section par

variable {toss : Op} {heads : Except ε (Val toss) → Bool}

theorem All.parWith {first : Prog μ ε Val β → Prog μ ε Val (α × β)}
    {alone : Except ε β → Prog μ ε Val (α × β)} {q : Prog μ ε Val β} (ht : A toss)
    (hf : ∀ q, All F A q → All F A (first q)) (ha : ∀ r, All F A (alone r)) (hq : All F A q) :
    All F A (parWith toss heads first alone q) := by
  induction q with
  | done r => exact ha r
  | sync g l ih =>
    refine ⟨ht, fun a => ?_⟩
    dsimp only
    split
    · exact hf _ hq
    · exact ⟨hq.1, fun m => ih m (hq.2 m)⟩
  | call o l ih =>
    refine ⟨ht, fun a => ?_⟩
    dsimp only
    split
    · exact hf _ hq
    · exact ⟨hq.1, fun b => ih b (hq.2 b)⟩

theorem All.joinLeft {p : Prog μ ε Val α} (hp : All F A p) (r : Except ε β) :
    All F A (joinLeft p r) := by
  cases r with
  | ok b => exact hp.bind fun a => All.ret _
  | error e => exact hp.attempt.bind fun _ => All.throw e

theorem All.joinRight {q : Prog μ ε Val β} (hq : All F A q) (r : Except ε α) :
    All F A (joinRight q r) := by
  cases r with
  | ok a => exact hq.bind fun b => All.ret _
  | error e => exact hq.attempt.bind fun _ => All.throw e

theorem All.par {p : Prog μ ε Val α} {q : Prog μ ε Val β} (ht : A toss) (hp : All F A p)
    (hq : All F A q) : All F A (par toss heads p q) := by
  induction p generalizing q with
  | done r => exact hq.joinRight r
  | sync f k ih =>
    exact .parWith ht (fun q hq => ⟨hp.1, fun m => ih m (hp.2 m) hq⟩) (All.joinLeft hp) hq
  | call o k ih =>
    exact .parWith ht (fun q hq => ⟨hp.1, fun a => ih a (hp.2 a) hq⟩) (All.joinLeft hp) hq

end par

theorem All.mono {p : Prog μ ε Val α} (hp : All F A p) (hF : ∀ f, F f → F' f)
    (hA : ∀ o, A o → A' o) : All F' A' p := by
  induction p with
  | done r => trivial
  | sync g k ih => exact ⟨hF g hp.1, fun m => ih m (hp.2 m)⟩
  | call o k ih => exact ⟨hA o hp.1, fun a => ih a (hp.2 a)⟩

/-- Where everything is allowed, every program does what is. -/
theorem All.always (p : Prog μ ε Val α) : All (fun _ => True) (fun _ => True) p := by
  induction p with
  | done r => trivial
  | sync g k ih => exact ⟨trivial, ih⟩
  | call o k ih => exact ⟨trivial, ih⟩

end Prog

end IntradayBot.Coop
