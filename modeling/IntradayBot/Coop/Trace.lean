import Mathlib.Data.List.Basic
import IntradayBot.Coop.Prog

/-!
# Traces of a program

What a single program of a system does (`Prog.Trace`): its synchronous segments, each on
the memory that it finds, and its requests with their answers. Nothing is said of the
others, who may change the memory and the remote part at will in between, so that what
holds of all traces of a program holds of it in every system.

A trace of a sequence is cut where the first part ends (`Trace.bind_ok`, `Trace.bind_call`),
and one of two programs run concurrently is an interleaving of their traces
(`Trace.par_ok`), of which an observer of one of the two sees only that one
(`Interleaved.filterMap_left`).
-/

namespace IntradayBot.Coop

/-- What a program does in a step, and the memory at that point. -/
inductive Event (μ ε : Type) {Op : Type} (Val : Op → Type)
  | sync (m : μ)
  | call (m : μ) (o : Op) (a : Except ε (Val o))

namespace Prog

variable {μ ε Op : Type} {Val : Op → Type} {α β : Type}

/-- `p` may do `t`, and `q` is what is left of it. -/
inductive Trace : Prog μ ε Val α → List (Event μ ε Val) → Prog μ ε Val α → Prop
  | refl (p : Prog μ ε Val α) : Trace p [] p
  | sync {f : μ → μ} {k : μ → Prog μ ε Val α} {m : μ} {t : List (Event μ ε Val)}
    {q : Prog μ ε Val α} : Trace (k m) t q → Trace (.sync f k) (.sync m :: t) q
  | call {o : Op} {k : Except ε (Val o) → Prog μ ε Val α} {m : μ} {a : Except ε (Val o)}
    {t : List (Event μ ε Val)} {q : Prog μ ε Val α} :
    Trace (k a) t q → Trace (.call o k) (.call m o a :: t) q

variable {p q : Prog μ ε Val α} {t : List (Event μ ε Val)} {F : (μ → μ) → Prop} {A : Op → Prop}

theorem Trace.done_iff {r : Except ε α} : Trace (.done r) t q ↔ t = [] ∧ q = .done r := by
  constructor
  · rintro ⟨⟩
    exact ⟨rfl, rfl⟩
  · rintro ⟨rfl, rfl⟩
    exact .refl _

/-- A program that has ended did a step first, if it was not at its end. -/
theorem Trace.sync_done {f : μ → μ} {k : μ → Prog μ ε Val α} {r : Except ε α}
    (h : Trace (.sync f k) t (.done r)) : ∃ m t', t = .sync m :: t' ∧ Trace (k m) t' (.done r) := by
  rcases h with _ | h
  exact ⟨_, _, rfl, h⟩

theorem Trace.call_done {o : Op} {k : Except ε (Val o) → Prog μ ε Val α} {r : Except ε α}
    (h : Trace (.call o k) t (.done r)) :
    ∃ m a t', t = .call m o a :: t' ∧ Trace (k a) t' (.done r) := by
  rcases h with _ | _ | h
  exact ⟨_, _, _, rfl, h⟩

/-- A request that returns was answered. -/
theorem Trace.request_ok {o : Op} {t : List (Event μ ε Val)} {b : Val o}
    (h : Trace (request o) t (.done (.ok b))) : ∃ m, t = [.call m o (.ok b)] := by
  obtain ⟨m, a, t', rfl, h'⟩ := h.call_done
  obtain ⟨rfl, ha⟩ := Trace.done_iff.1 h'
  obtain rfl : Except.ok b = a := by simpa using ha
  exact ⟨m, rfl⟩

/-- A synchronous segment that returns ran on some memory. -/
theorem Trace.atomically_ok {f : μ → α × μ} {a : α}
    (h : Trace (atomically f : Prog μ ε Val α) t (.done (.ok a))) :
    ∃ m, t = [.sync m] ∧ a = (f m).1 := by
  obtain ⟨m, t', rfl, h'⟩ := h.sync_done
  obtain ⟨rfl, ha⟩ := Trace.done_iff.1 h'
  exact ⟨m, rfl, by simpa [ret] using ha⟩

theorem Trace.trans {q' : Prog μ ε Val α} {t' : List (Event μ ε Val)} (h : Trace p t q)
    (h' : Trace q t' q') : Trace p (t ++ t') q' := by
  induction h with
  | refl => exact h'
  | sync _ ih => exact .sync (ih h')
  | call _ ih => exact .call (ih h')

/-- What is left of a program only does what the program may do. -/
theorem All.trace (hp : All F A p) (h : Trace p t q) : All F A q := by
  induction h with
  | refl => exact hp
  | sync _ ih => exact ih (hp.2 _)
  | call _ ih => exact ih (hp.2 _)

/-- An observer of requests that a program does not make sees nothing of it. -/
theorem All.filterMap_eq_nil {γ : Type} (see : Event μ ε Val → Option γ) (hp : All F A p)
    (h : Trace p t q) (hsync : ∀ m, see (.sync m) = none)
    (hcall : ∀ m o a, A o → see (.call m o a) = none) : t.filterMap see = [] := by
  induction h with
  | refl => rfl
  | sync _ ih => simpa [hsync] using ih (hp.2 _)
  | call _ ih => simpa [hcall _ _ _ hp.1] using ih (hp.2 _)

/-! ## Sequences -/

/-- A trace of a sequence is within the first program, or reaches the second one. -/
theorem Trace.bind {f : α → Prog μ ε Val β} {q : Prog μ ε Val β} (h : Trace (p.bind f) t q) :
    (∃ p', Trace p t p' ∧ q = p'.bind f) ∨
      ∃ t₁ t₂ a, t = t₁ ++ t₂ ∧ Trace p t₁ (.done (.ok a)) ∧ Trace (f a) t₂ q := by
  induction p generalizing t with
  | done r =>
    rcases r with e | a
    · obtain ⟨rfl, rfl⟩ := Trace.done_iff.1 h
      exact .inl ⟨_, .refl _, rfl⟩
    · exact .inr ⟨[], t, a, rfl, .refl _, h⟩
  | sync g k ih =>
    rcases h with _ | h
    · exact .inl ⟨_, .refl _, rfl⟩
    · rcases ih _ h with ⟨p', hp', hq⟩ | ⟨t₁, t₂, a, rfl, h₁, h₂⟩
      · exact .inl ⟨p', .sync hp', hq⟩
      · exact .inr ⟨_ :: t₁, t₂, a, rfl, .sync h₁, h₂⟩
  | call o k ih =>
    rcases h with _ | _ | h
    · exact .inl ⟨_, .refl _, rfl⟩
    · rcases ih _ h with ⟨p', hp', hq⟩ | ⟨t₁, t₂, a, rfl, h₁, h₂⟩
      · exact .inl ⟨p', .call hp', hq⟩
      · exact .inr ⟨_ :: t₁, t₂, a, rfl, .call h₁, h₂⟩

/-- A sequence that returns went through both programs. -/
theorem Trace.bind_ok {f : α → Prog μ ε Val β} {b : β} (h : Trace (p.bind f) t (.done (.ok b))) :
    ∃ t₁ t₂ a, t = t₁ ++ t₂ ∧ Trace p t₁ (.done (.ok a)) ∧ Trace (f a) t₂ (.done (.ok b)) := by
  rcases h.bind with ⟨p', hp', hq⟩ | h
  · rcases p' with (e | a) | _ | _
    · exact nomatch hq
    · exact ⟨t, [], a, (List.append_nil t).symm, hp', hq ▸ .refl _⟩
    · exact nomatch hq
    · exact nomatch hq
  · exact h

/-- A sequence at a request that the first program does not make is in the second one. -/
theorem Trace.bind_call {f : α → Prog μ ε Val β} {o : Op}
    {k : Except ε (Val o) → Prog μ ε Val β} (hp : All F A p) (ho : ¬ A o)
    (h : Trace (p.bind f) t (.call o k)) :
    ∃ t₁ t₂ a, t = t₁ ++ t₂ ∧ Trace p t₁ (.done (.ok a)) ∧ Trace (f a) t₂ (.call o k) := by
  rcases h.bind with ⟨p', hleft, hq⟩ | h
  · have hp' := hp.trace hleft
    rcases p' with (e | a) | _ | _
    · exact nomatch hq
    · exact ⟨t, [], a, (List.append_nil t).symm, hleft, hq ▸ .refl _⟩
    · exact nomatch hq
    · obtain ⟨rfl, -⟩ := Prog.call.inj hq
      exact absurd hp'.1 ho
  · exact h

/-- A sequence that starts with a request whose errors are handled is at it, or got an
    answer. -/
theorem Trace.attempt_request {o : Op} {f : Except ε (Val o) → Prog μ ε Val β}
    {q : Prog μ ε Val β} (h : Trace ((request o).attempt.bind f) t q) :
    t = [] ∨ ∃ m a t', t = .call m o a :: t' ∧ Trace (f a) t' q := by
  rcases h with _ | _ | h
  · exact .inl rfl
  · exact .inr ⟨_, _, _, rfl, h⟩

/-- The outcome of a program is what it ends with. -/
theorem Trace.attempt_ok {r : Except ε α} (h : Trace p.attempt t (.done (.ok r))) :
    Trace p t (.done r) := by
  induction p generalizing t with
  | done r' =>
    obtain ⟨rfl, hr⟩ := Trace.done_iff.1 h
    obtain rfl : r = r' := by simpa using hr
    exact .refl _
  | sync g k ih =>
    obtain ⟨m, t', rfl, h'⟩ := h.sync_done
    exact .sync (ih _ h')
  | call o k ih =>
    obtain ⟨m, a, t', rfl, h'⟩ := h.call_done
    exact .call (ih _ h')

/-! ## Concrete traces -/

/-- What a program does, and what is left of it, when `answer` answers its requests, from
    what it did before, and when only it changes the memory. It stops at a request that
    `answer` leaves open. -/
def follow (answer : List (Event μ ε Val) → (o : Op) → Option (Except ε (Val o))) :
    Prog μ ε Val α → μ → List (Event μ ε Val) → List (Event μ ε Val) × Prog μ ε Val α
  | .done r, _, _ => ([], .done r)
  | .sync f k, m, t =>
    let rest := follow answer (k m) (f m) (.sync m :: t)
    (.sync m :: rest.1, rest.2)
  | .call o k, m, t => match answer t o with
    | none => ([], .call o k)
    | some a =>
      let rest := follow answer (k a) m (.call m o a :: t)
      (.call m o a :: rest.1, rest.2)

theorem trace_follow (answer : List (Event μ ε Val) → (o : Op) → Option (Except ε (Val o)))
    (p : Prog μ ε Val α) (m : μ) (t : List (Event μ ε Val)) :
    Trace p (follow answer p m t).1 (follow answer p m t).2 := by
  induction p generalizing m t with
  | done r => exact .refl _
  | sync f k ih => exact .sync (ih _ _ _)
  | call o k ih =>
    rw [follow]
    split
    · exact .refl _
    · exact .call (ih _ _ _)

/-- What the requests of such a trace return, `answer` said at some point of it. -/
theorem answer_of_mem_follow {answer : List (Event μ ε Val) → (o : Op) → Option (Except ε (Val o))}
    {p : Prog μ ε Val α} {m m' : μ} {t : List (Event μ ε Val)} {o : Op} {a : Except ε (Val o)}
    (h : .call m' o a ∈ (follow answer p m t).1) : ∃ t', answer t' o = some a := by
  induction p generalizing m t with
  | done r => cases h
  | sync f k ih =>
    rw [follow] at h
    rcases List.mem_cons.1 h with h | h
    · cases h
    · exact ih _ h
  | call o' k ih =>
    rw [follow] at h
    split at h
    · cases h
    · rename_i a' ha
      rcases List.mem_cons.1 h with h | h
      · cases h
        exact ⟨t, ha⟩
      · exact ih _ h

end Prog

/-! ## Concurrent programs -/

section

variable {μ ε Op : Type} {Val : Op → Type} {α β γ : Type} {toss : Op}

/-- The events of two traces, in some order, with the answers about which one moves. -/
inductive Interleaved (toss : Op) :
    List (Event μ ε Val) → List (Event μ ε Val) → List (Event μ ε Val) → Prop
  | nil : Interleaved toss [] [] []
  | left {t₁ t₂ t : List (Event μ ε Val)} (e : Event μ ε Val) :
    Interleaved toss t₁ t₂ t → Interleaved toss (e :: t₁) t₂ (e :: t)
  | right {t₁ t₂ t : List (Event μ ε Val)} (e : Event μ ε Val) :
    Interleaved toss t₁ t₂ t → Interleaved toss t₁ (e :: t₂) (e :: t)
  | toss {t₁ t₂ t : List (Event μ ε Val)} (m : μ) (a : Except ε (Val toss)) :
    Interleaved toss t₁ t₂ t → Interleaved toss t₁ t₂ (.call m toss a :: t)

namespace Interleaved

variable {t t₁ t₂ : List (Event μ ε Val)}

theorem nil_left (t : List (Event μ ε Val)) : Interleaved toss [] t t := by
  induction t with
  | nil => exact .nil
  | cons e t ih => exact .right e ih

theorem nil_right (t : List (Event μ ε Val)) : Interleaved toss t [] t := by
  induction t with
  | nil => exact .nil
  | cons e t ih => exact .left e ih

/-- An observer of the first trace alone. -/
theorem filterMap_left {see : Event μ ε Val → Option γ} (h : Interleaved toss t₁ t₂ t)
    (htoss : ∀ m a, see (.call m toss a) = none) (h₂ : t₂.filterMap see = []) :
    t.filterMap see = t₁.filterMap see := by
  induction h with
  | nil => rfl
  | left e _ ih => rw [List.filterMap_cons, List.filterMap_cons, ih h₂]
  | right e _ ih =>
    rw [List.filterMap_eq_nil_iff, List.forall_mem_cons] at h₂
    rw [List.filterMap_cons, h₂.1, ih (List.filterMap_eq_nil_iff.2 h₂.2)]
  | toss m a _ ih => rw [List.filterMap_cons, htoss, ih h₂]

/-- An observer of the second trace alone. -/
theorem filterMap_right {see : Event μ ε Val → Option γ} (h : Interleaved toss t₁ t₂ t)
    (htoss : ∀ m a, see (.call m toss a) = none) (h₁ : t₁.filterMap see = []) :
    t.filterMap see = t₂.filterMap see := by
  induction h with
  | nil => rfl
  | left e _ ih =>
    rw [List.filterMap_eq_nil_iff, List.forall_mem_cons] at h₁
    rw [List.filterMap_cons, h₁.1, ih (List.filterMap_eq_nil_iff.2 h₁.2)]
  | right e _ ih => rw [List.filterMap_cons, List.filterMap_cons, ih h₁]
  | toss m a _ ih => rw [List.filterMap_cons, htoss, ih h₁]

end Interleaved

namespace Prog

variable {heads : Except ε (Val toss) → Bool} {p : Prog μ ε Val α} {q : Prog μ ε Val β}
  {t : List (Event μ ε Val)} {a : α} {b : β}

theorem Trace.joinRight_ok {r : Except ε α} (h : Trace (joinRight q r) t (.done (.ok (a, b)))) :
    r = .ok a ∧ Trace q t (.done (.ok b)) := by
  rcases r with e | a'
  · obtain ⟨_, _, _, _, _, h⟩ := Trace.bind_ok h
    exact nomatch (Trace.done_iff.1 h).2
  · obtain ⟨t₁, t₂, b', rfl, h₁, h₂⟩ := Trace.bind_ok h
    obtain ⟨rfl, hr⟩ := Trace.done_iff.1 h₂
    obtain ⟨rfl, rfl⟩ : a = a' ∧ b = b' := by simpa using hr
    exact ⟨rfl, by rwa [List.append_nil]⟩

theorem Trace.joinLeft_ok {r : Except ε β} (h : Trace (joinLeft p r) t (.done (.ok (a, b)))) :
    r = .ok b ∧ Trace p t (.done (.ok a)) := by
  rcases r with e | b'
  · obtain ⟨_, _, _, _, _, h⟩ := Trace.bind_ok h
    exact nomatch (Trace.done_iff.1 h).2
  · obtain ⟨t₁, t₂, a', rfl, h₁, h₂⟩ := Trace.bind_ok h
    obtain ⟨rfl, hr⟩ := Trace.done_iff.1 h₂
    obtain ⟨rfl, rfl⟩ : a = a' ∧ b = b' := by simpa using hr
    exact ⟨rfl, by rwa [List.append_nil]⟩

/-- The trace of `p` and `q` run concurrently, when `first` goes on with `p` and `alone` is
    what is left of it. -/
theorem Trace.parWith_ok {first : Prog μ ε Val β → Prog μ ε Val (α × β)}
    {alone : Except ε β → Prog μ ε Val (α × β)}
    (hfirst : ∀ q t, Trace (first q) t (.done (.ok (a, b))) → ∃ t₁ t₂,
      Trace p t₁ (.done (.ok a)) ∧ Trace q t₂ (.done (.ok b)) ∧ Interleaved toss t₁ t₂ t)
    (halone : ∀ r t, Trace (alone r) t (.done (.ok (a, b))) →
      r = .ok b ∧ Trace p t (.done (.ok a)))
    (h : Trace (parWith toss heads first alone q) t (.done (.ok (a, b)))) :
    ∃ t₁ t₂, Trace p t₁ (.done (.ok a)) ∧ Trace q t₂ (.done (.ok b)) ∧
      Interleaved toss t₁ t₂ t := by
  induction q generalizing t with
  | done r =>
    obtain ⟨rfl, hp⟩ := halone r t h
    exact ⟨t, [], hp, .refl _, .nil_right t⟩
  | sync g l ih =>
    -- The toss decides which side takes the next step; its own step is in the trace of neither.
    obtain ⟨m, c, t, rfl, h'⟩ := Trace.call_done h
    split at h'
    · obtain ⟨t₁, t₂, h₁, h₂, hi⟩ := hfirst _ _ h'
      exact ⟨t₁, t₂, h₁, h₂, .toss m c hi⟩
    · obtain ⟨m', t, rfl, h₀⟩ := h'.sync_done
      obtain ⟨t₁, t₂, h₁, h₂, hi⟩ := ih _ h₀
      exact ⟨t₁, _, h₁, .sync h₂, .toss m c (.right _ hi)⟩
  | call o l ih =>
    obtain ⟨m, c, t, rfl, h'⟩ := Trace.call_done h
    split at h'
    · obtain ⟨t₁, t₂, h₁, h₂, hi⟩ := hfirst _ _ h'
      exact ⟨t₁, t₂, h₁, h₂, .toss m c hi⟩
    · obtain ⟨m', c', t, rfl, h₀⟩ := h'.call_done
      obtain ⟨t₁, t₂, h₁, h₂, hi⟩ := ih _ h₀
      exact ⟨t₁, _, h₁, .call h₂, .toss m c (.right _ hi)⟩

/-- Two programs run concurrently that both return have interleaved their traces. -/
theorem Trace.par_ok (h : Trace (par toss heads p q) t (.done (.ok (a, b)))) :
    ∃ t₁ t₂, Trace p t₁ (.done (.ok a)) ∧ Trace q t₂ (.done (.ok b)) ∧
      Interleaved toss t₁ t₂ t := by
  induction p generalizing q t with
  | done r =>
    obtain ⟨rfl, hq⟩ := Trace.joinRight_ok h
    exact ⟨[], t, .refl _, hq, .nil_left t⟩
  | sync f k ih =>
    refine Trace.parWith_ok (fun q t h => ?_) (fun r t => Trace.joinLeft_ok) h
    obtain ⟨m, t, rfl, h'⟩ := h.sync_done
    obtain ⟨t₁, t₂, h₁, h₂, hi⟩ := ih _ h'
    exact ⟨_, t₂, .sync h₁, h₂, .left _ hi⟩
  | call o k ih =>
    refine Trace.parWith_ok (fun q t h => ?_) (fun r t => Trace.joinLeft_ok) h
    obtain ⟨m, c, t, rfl, h'⟩ := h.call_done
    obtain ⟨t₁, t₂, h₁, h₂, hi⟩ := ih _ h'
    exact ⟨_, t₂, .call h₁, h₂, .left _ hi⟩

/-! ## Errors -/

/-- The errors that a program throws are in `E`, or were answers to its requests. -/
def Raises : Prog μ ε Val α → (ε → Prop) → Prop
  | .done r, E => ∀ e, r = .error e → E e
  | .sync _ k, E => ∀ m, Raises (k m) E
  | .call _ k, E => ∀ a, Raises (k a) fun e => E e ∨ a = .error e

variable {E E' : ε → Prop}

theorem Raises.mono (hp : p.Raises E) (h : ∀ e, E e → E' e) : p.Raises E' := by
  induction p generalizing E E' with
  | done r => exact fun e he => h e (hp e he)
  | sync f k ih => exact fun m => ih m (hp m) h
  | call o k ih => exact fun a => ih a (hp a) fun e he => he.imp_left (h e)

theorem Raises.ret (a : α) : (.done (.ok a) : Prog μ ε Val α).Raises E := fun _ he => nomatch he

theorem Raises.throw {e : ε} (he : E e) : (.done (.error e) : Prog μ ε Val α).Raises E := by
  rintro e' h
  obtain rfl := Except.error.inj h
  exact he

theorem Raises.request (o : Op) : (request o : Prog μ ε Val (Val o)).Raises E :=
  fun _ _ he => .inr he

theorem Raises.bind {f : α → Prog μ ε Val β} (hp : p.Raises E) (hf : ∀ a, (f a).Raises E) :
    (p.bind f).Raises E := by
  induction p generalizing E with
  | done r =>
    rcases r with e | a
    · exact .throw (hp e rfl)
    · exact hf a
  | sync g k ih => exact fun m => ih m (hp m) hf
  | call o k ih => exact fun a => ih a (hp a) fun b => (hf b).mono fun _ => .inl

/-- Where the errors are handled, only those of the handler are thrown. -/
theorem Raises.handle {h : ε → Prog μ ε Val α} (hh : ∀ e, (h e).Raises E) :
    (p.handle h).Raises E := by
  induction p generalizing E with
  | done r =>
    rcases r with e | a
    · exact hh e
    · exact .ret a
  | sync g k ih => exact fun m => ih m hh
  | call o k ih => exact fun a => ih a fun e => (hh e).mono fun _ => .inl

theorem Raises.attempt (p : Prog μ ε Val α) : p.attempt.Raises E := by
  induction p generalizing E with
  | done r => exact .ret r
  | sync g k ih => exact fun m => ih m
  | call o k ih => exact fun a => ih a

/-- What is left of one program when the other one ended throws the errors of the two. -/
theorem Raises.joinLeft {r : Except ε β} (hp : p.Raises E) (hr : ∀ e, r = .error e → E e) :
    (joinLeft p r).Raises E := by
  rcases r with e | b
  · exact .bind (.attempt p) fun _ => .throw (hr e rfl)
  · exact hp.bind fun a => .ret (a, b)

theorem Raises.joinRight {r : Except ε α} (hq : q.Raises E) (hr : ∀ e, r = .error e → E e) :
    (joinRight q r).Raises E := by
  rcases r with e | a
  · exact .bind (.attempt q) fun _ => .throw (hr e rfl)
  · exact hq.bind fun b => .ret (a, b)

theorem Raises.parWith {first : Prog μ ε Val β → Prog μ ε Val (α × β)}
    {alone : Except ε β → Prog μ ε Val (α × β)} (hq : q.Raises E)
    (hfirst : ∀ (q : Prog μ ε Val β) (E' : ε → Prop), (∀ e, E e → E' e) → q.Raises E' →
      (first q).Raises E')
    (halone : ∀ (r : Except ε β) (E' : ε → Prop), (∀ e, E e → E' e) →
      (∀ e, r = .error e → E' e) → (alone r).Raises E') :
    (parWith toss heads first alone q).Raises E := by
  induction q generalizing E with
  | done r => exact halone r E (fun _ => id) hq
  | sync g l ih =>
    intro a
    dsimp only
    split
    · exact hfirst _ _ (fun _ => .inl) (hq.mono fun _ => .inl)
    · exact fun m => ih m ((hq m).mono fun _ => .inl) (fun q E' h => hfirst q E' fun e he => h e (.inl he))
        fun r E' h => halone r E' fun e he => h e (.inl he)
  | call o l ih =>
    intro a
    dsimp only
    split
    · exact hfirst _ _ (fun _ => .inl) (hq.mono fun _ => .inl)
    · exact fun b => ih b ((hq b).mono fun _ => Or.imp_left .inl)
        (fun q E' h => hfirst q E' fun e he => h e (.inl (.inl he)))
        fun r E' h => halone r E' fun e he => h e (.inl (.inl he))

/-- Two programs run concurrently throw the errors of the two. -/
theorem Raises.par (hp : p.Raises E) (hq : q.Raises E) : (par toss heads p q).Raises E := by
  induction p generalizing q E with
  | done r => exact hq.joinRight hp
  | sync f k ih =>
    exact hq.parWith (fun q E' h hq m => ih m ((hp m).mono h) hq)
      fun r E' h hr => (Raises.mono (p := .sync f k) hp h).joinLeft hr
  | call o k ih =>
    refine hq.parWith (fun q E' h hq a => ih a ((hp a).mono fun e => Or.imp_left (h e)) ?_)
      fun r E' h hr => (Raises.mono (p := .call o k) hp h).joinLeft hr
    exact hq.mono fun _ => .inl

/-- An error that ends a trace is one of the program, or was an answer in it. -/
theorem Raises.of_trace {e : ε} (hp : p.Raises E) (h : Trace p t (.done (.error e))) :
    E e ∨ ∃ m o, .call m o (.error e) ∈ t := by
  generalize hq : (.done (.error e) : Prog μ ε Val α) = q at h
  induction h generalizing E with
  | refl =>
    subst hq
    exact .inl (hp e rfl)
  | sync _ ih => exact (ih (hp _) hq).imp_right fun ⟨m, o, hm⟩ => ⟨m, o, List.mem_cons_of_mem _ hm⟩
  | call _ ih =>
    rcases ih (hp _) hq with (he | rfl) | ⟨m, o, hm⟩
    · exact .inl he
    · exact .inr ⟨_, _, List.mem_cons_self⟩
    · exact .inr ⟨m, o, List.mem_cons_of_mem _ hm⟩

end Prog

end

end IntradayBot.Coop
