import IntradayBot.Coop.Rely
import IntradayBot.Leader.Runtime

/-!
# One leader

A process whose worker is in its cycle has a session that has not ended, and such a session
holds the lock (`Exclusive`). Sessions are not shared, so one process at a time is in its cycle.

This lasts as long as no process gives up or loses its session while its worker is in its cycle
(`Undisturbed`, `one_leader`). Nothing makes it so: leadership is checked once, at the start of a
cycle, and another process may lead before the cycle ends (`two_leaders`).
-/

namespace IntradayBot.Leader

open Coop

variable {ι : Type} [DecidableEq ι]

/-- Who is in its cycle holds the lock. -/
structure Exclusive (c : Cloud ι) : Prop where
  known : ∀ p s, (c.process p).connection = some s → s < c.sessions
  distinct : ∀ p q s, (c.process p).connection = some s → (c.process q).connection = some s → p = q
  leader : ∀ p, (c.process p).leader = true ↔ (c.process p).connection ≠ none
  held : ∀ p s, (c.process p).connection = some s → c.ended s = false → c.lock = some s
  cycling : ∀ p, (c.process p).cycling = true →
    ∃ s, (c.process p).connection = some s ∧ c.ended s = false
  running : ∀ p, (c.process p).running = true → (c.process p).cycling = true

/-- At most one process executes the body of its cycle. -/
def Cloud.OneRuns (c : Cloud ι) : Prop :=
  ∀ p q, (c.process p).running = true → (c.process q).running = true → p = q

omit [DecidableEq ι] in
theorem Exclusive.oneRuns {c : Cloud ι} (h : Exclusive c) : c.OneRuns := by
  intro p q hp hq
  obtain ⟨s, hs, hlive⟩ := h.cycling p (h.running p hp)
  obtain ⟨s', hs', hlive'⟩ := h.cycling q (h.running q hq)
  have hsame : some s = some s' := (h.held p s hs hlive).symm.trans (h.held q s' hs' hlive')
  obtain rfl := Option.some.inj hsame
  exact h.distinct p q s hs hs'

/-! ## What the steps do -/

@[simp] theorem set_lock (c : Cloud ι) (p : ι) (f : Process → Process) :
    (c.set p f).lock = c.lock := rfl

@[simp] theorem set_ended (c : Cloud ι) (p : ι) (f : Process → Process) :
    (c.set p f).ended = c.ended := rfl

@[simp] theorem set_sessions (c : Cloud ι) (p : ι) (f : Process → Process) :
    (c.set p f).sessions = c.sessions := rfl

@[simp] theorem set_same (c : Cloud ι) (p : ι) (f : Process → Process) :
    (c.set p f).process p = f (c.process p) := by simp [Cloud.set]

theorem set_other (c : Cloud ι) {p q : ι} (f : Process → Process) (h : q ≠ p) :
    (c.set p f).process q = c.process q := by simp [Cloud.set, h]

/-- A process that keeps its session may change, if it enters the body only in its cycle, and
    its cycle only with a live session. -/
theorem Exclusive.set {c : Cloud ι} (h : Exclusive c) {p : ι} {f : Process → Process}
    (hconnection : (f (c.process p)).connection = (c.process p).connection)
    (hleader : (f (c.process p)).leader = (c.process p).leader)
    (hcycling : (f (c.process p)).cycling = true →
      ∃ s, (c.process p).connection = some s ∧ c.ended s = false)
    (hrunning : (f (c.process p)).running = true → (f (c.process p)).cycling = true) :
    Exclusive (c.set p f) := by
  have hsame (q : ι) : ((c.set p f).process q).connection = (c.process q).connection := by
    by_cases hq : q = p
    · subst hq
      simpa using hconnection
    · rw [set_other c f hq]
  -- Sessions and locks stay, so each clause is the old one, or one of the hypotheses at `p`.
  refine ⟨?_, ?_, ?_, ?_, ?_, ?_⟩
  · intro q s hs
    exact h.known q s ((hsame q).symm.trans hs)
  · intro q r s hq hr
    exact h.distinct q r s ((hsame q).symm.trans hq) ((hsame r).symm.trans hr)
  · intro q
    rw [hsame]
    by_cases hq : q = p
    · subst hq
      simpa [hleader] using h.leader q
    · rw [set_other c f hq]
      exact h.leader q
  · intro q s hs
    exact h.held q s ((hsame q).symm.trans hs)
  · intro q hq
    rw [hsame]
    by_cases hqp : q = p
    · subst hqp
      exact hcycling (by simpa using hq)
    · rw [set_other c f hqp] at hq
      exact h.cycling q hq
  · intro q hq
    by_cases hqp : q = p
    · subst hqp
      simpa using hrunning (by simpa using hq)
    · rw [set_other c f hqp] at hq ⊢
      exact h.running q hq

omit [DecidableEq ι] in
/-- The end of a session disturbs no one if it is of no process in its cycle. -/
theorem Exclusive.endSession {c : Cloud ι} (h : Exclusive c) {s : ℕ}
    (hs : ∀ p, (c.process p).cycling = true → (c.process p).connection ≠ some s) :
    Exclusive (c.endSession s) := by
  refine ⟨h.known, h.distinct, h.leader, ?_, ?_, h.running⟩
  · intro p s' hs' hlive
    have hne : s' ≠ s := by
      rintro rfl
      simp [Cloud.endSession] at hlive
    have hlock : c.lock = some s' := h.held p s' hs' (by simpa [Cloud.endSession, hne] using hlive)
    simp [Cloud.endSession, hlock, hne]
  · intro p hp
    obtain ⟨s', hs', hlive⟩ := h.cycling p hp
    have hne : s' ≠ s := fun hne => hs p hp (hne ▸ hs')
    exact ⟨s', hs', by simpa [Cloud.endSession, hne] using hlive⟩

/-- A process without a session takes the free lock. -/
theorem Exclusive.grant {c : Cloud ι} (h : Exclusive c) {p : ι}
    (hnone : (c.process p).connection = none) (hfree : c.lock = none) :
    Exclusive (c.grant p) := by
  -- the sessions of the others have ended: a live one would hold the lock
  have hended (q : ι) (s : ℕ) (hs : (c.process q).connection = some s) : c.ended s = true := by
    by_contra hlive
    have hlock := h.held q s hs (by simpa using hlive)
    simp [hfree] at hlock
  have hidle (q : ι) : ¬(c.process q).cycling = true := by
    intro hq
    obtain ⟨s, hs, hlive⟩ := h.cycling q hq
    simp [hended q s hs] at hlive
  have hprocess (q : ι) : (c.grant p).process q =
      if q = p then { c.process p with connection := some c.sessions, leader := true }
      else c.process q := by
    by_cases hq : q = p <;> simp [Cloud.grant, Cloud.set, hq]
  refine ⟨?_, ?_, ?_, ?_, ?_, ?_⟩
  · intro q s hs
    change s < c.sessions + 1
    by_cases hq : q = p
    · obtain rfl : c.sessions = s := by simpa [hprocess, hq] using hs
      omega
    · have := h.known q s (by simpa [hprocess, hq] using hs)
      omega
  · intro q r s hqs hrs
    by_cases hq : q = p <;> by_cases hr : r = p
    · exact hq.trans hr.symm
    · obtain rfl : c.sessions = s := by simpa [hprocess, hq] using hqs
      exact absurd (h.known r _ (by simpa [hprocess, hr] using hrs)) (Nat.lt_irrefl _)
    · obtain rfl : c.sessions = s := by simpa [hprocess, hr] using hrs
      exact absurd (h.known q _ (by simpa [hprocess, hq] using hqs)) (Nat.lt_irrefl _)
    · exact h.distinct q r s (by simpa [hprocess, hq] using hqs) (by simpa [hprocess, hr] using hrs)
  · intro q
    by_cases hq : q = p
    · simp [hprocess, hq]
    · simpa [hprocess, hq] using h.leader q
  · intro q s hs hlive
    by_cases hq : q = p
    · obtain rfl : c.sessions = s := by simpa [hprocess, hq] using hs
      rfl
    · have : c.ended s = false := hlive
      simp [hended q s (by simpa [hprocess, hq] using hs)] at this
  · intro q hq
    refine absurd ?_ (hidle q)
    by_cases hqp : q = p
    · subst hqp
      simpa [hprocess] using hq
    · simpa [hprocess, hqp] using hq
  · intro q hq
    refine absurd (h.running q ?_) (hidle q)
    by_cases hqp : q = p
    · subst hqp
      simpa [hprocess] using hq
    · simpa [hprocess, hqp] using hq

/-- A process that is not in its cycle may forget its session. -/
theorem Exclusive.forget {c : Cloud ι} (h : Exclusive c) {p : ι}
    (hp : ¬(c.process p).cycling = true) :
    Exclusive (c.set p fun s => { s with connection := none, leader := false }) := by
  have hconnection {q : ι} {s : ℕ} (hs : ((c.set p fun s =>
      { s with connection := none, leader := false }).process q).connection = some s) :
      q ≠ p ∧ (c.process q).connection = some s := by
    have hq : q ≠ p := by
      rintro rfl
      simp at hs
    exact ⟨hq, by simpa [set_other _ _ hq] using hs⟩
  -- `p` is in no cycle, so what it forgets no clause asks of it.
  refine ⟨?_, ?_, ?_, ?_, ?_, ?_⟩
  · intro q s hs
    exact h.known q s (hconnection hs).2
  · intro q r s hq hr
    exact h.distinct q r s (hconnection hq).2 (hconnection hr).2
  · intro q
    by_cases hq : q = p
    · subst hq
      simp
    · rw [set_other _ _ hq]
      exact h.leader q
  · intro q s hs
    exact h.held q s (hconnection hs).2
  · intro q hq
    by_cases hqp : q = p
    · subst hqp
      exact absurd (by simpa using hq) hp
    · rw [set_other _ _ hqp] at hq ⊢
      exact h.cycling q hq
  · intro q hq
    by_cases hqp : q = p
    · subst hqp
      simpa using h.running q (by simpa using hq)
    · rw [set_other _ _ hqp] at hq ⊢
      exact h.running q hq

theorem Exclusive.drop {c : Cloud ι} (h : Exclusive c) {p : ι} (reached : Bool)
    (hp : ¬(c.process p).cycling = true) : Exclusive (c.drop p reached) := by
  unfold Cloud.drop
  cases hs : (c.process p).connection with
  | none => exact h.forget hp
  | some s =>
    cases reached with
    | false => exact h.forget hp
    | true =>
      refine Exclusive.forget (h.endSession ?_) hp
      intro q hq hqs
      exact hp (h.distinct q p s hqs hs ▸ hq)

omit [DecidableEq ι] in
theorem Exclusive.not_leads {c : Cloud ι} (h : Exclusive c) {p : ι} (hp : ¬(c.process p).Leads) :
    (c.process p).connection = none ∧ (c.process p).leader = false := by
  have hleader := h.leader p
  by_cases hc : (c.process p).connection = none
  · exact ⟨hc, by simpa [hc] using hleader⟩
  · exact absurd ⟨hc, hleader.2 hc⟩ hp

/-! ## The answers -/

/-- The answers with which a process gives its session up, or finds it lost. -/
def Frees : (o : Op) → Except String o.Val → Bool
  | .release, _ => true
  | .acquire, .ok leader | .isLeader, .ok leader | .check, .ok leader => !leader
  | _, _ => false

/-- Any request but those of the cycle. -/
def Plain : Op → Prop
  | .check | .enter | .leave => False
  | _ => True

/-- The other processes are left alone, and requests outside the cycle leave it alone. -/
structure Spares (p : ι) (o : Op) (c c' : Cloud ι) : Prop where
  others : ∀ q, q ≠ p → c'.process q = c.process q
  cycling : Plain o → (c'.process p).cycling = (c.process p).cycling

omit [DecidableEq ι] in
theorem Spares.refl (p : ι) (o : Op) (c : Cloud ι) : Spares p o c c :=
  ⟨fun _ _ => rfl, fun _ => rfl⟩

theorem set_spares (c : Cloud ι) (p : ι) {o : Op} {f : Process → Process}
    (h : Plain o → (f (c.process p)).cycling = (c.process p).cycling) :
    Spares p o c (c.set p f) :=
  ⟨fun _ hq => set_other c f hq, fun ho => by simpa using h ho⟩

theorem drop_process (c : Cloud ι) (p : ι) (reached : Bool) (q : ι) :
    (c.drop p reached).process q =
      if q = p then { c.process p with connection := none, leader := false } else c.process q := by
  unfold Cloud.drop
  by_cases hq : q = p
  · subst hq
    cases (c.process q).connection <;> cases reached <;> simp [Cloud.endSession]
  · simp only [set_other _ _ hq]
    cases (c.process p).connection <;> cases reached <;> simp [Cloud.endSession, hq]

theorem drop_spares (c : Cloud ι) (p : ι) (o : Op) (reached : Bool) :
    Spares p o c (c.drop p reached) :=
  ⟨fun q hq => by simp [drop_process, hq], fun _ => by simp [drop_process]⟩

theorem Answers.spares {p : ι} {o : Op} {c c' : Cloud ι} {a : Except String o.Val}
    (h : Answers p o c a c') : Spares p o c c' := by
  cases h with
  | acquireLost | isLeaderLost | checkLost | release => exact drop_spares _ _ _ _
  | acquireTaken =>
    exact ⟨fun q hq => by simp [Cloud.grant, Cloud.set, hq],
      fun _ => by simp [Cloud.grant, Cloud.set]⟩
  | checkKept | checkUnchecked | enter | leave => exact set_spares _ _ False.elim
  | acquireDenied | beginShutdown | setWorkersStarted | startThread | setStopEvent | threadEnds
    | startPromotion | promotionEnds | beginFinalize | setCleanupDone | setShutdownComplete =>
    exact set_spares _ _ fun _ => rfl
  | _ => exact .refl _ _ _

/-- A flag of a process is set. -/
theorem Exclusive.flag {c : Cloud ι} (h : Exclusive c) (p : ι) {f : Process → Process}
    (hf : ∀ s, (f s).connection = s.connection ∧ (f s).leader = s.leader ∧
      (f s).cycling = s.cycling ∧ (f s).running = s.running) : Exclusive (c.set p f) := by
  obtain ⟨hconnection, hleader, hcycling, hrunning⟩ := hf (c.process p)
  refine h.set hconnection hleader ?_ ?_
  · rw [hcycling]
    exact h.cycling p
  · rw [hcycling, hrunning]
    exact h.running p

/-- Outside the cycle, only a session that is given up in the cycle disturbs anyone. -/
theorem Answers.exclusive {p : ι} {o : Op} {c c' : Cloud ι} {a : Except String o.Val}
    (h : Answers p o c a c') (hc : Exclusive c) (ho : Plain o)
    (hfrees : Frees o a = true → ¬(c.process p).cycling = true) : Exclusive c' := by
  cases h with
  | acquireLost reached | isLeaderLost reached | release reached =>
    exact hc.drop reached (hfrees rfl)
  | acquireTaken hleads hfree => exact hc.grant (hc.not_leads hleads).1 hfree
  | acquireDenied hleads =>
    refine hc.set rfl (hc.not_leads hleads).2.symm (hc.cycling p) (hc.running p)
  | checkKept | checkLost | checkUnchecked | enter | leave => exact ho.elim
  | beginShutdown | setWorkersStarted | startThread | setStopEvent | threadEnds
    | startPromotion | promotionEnds | beginFinalize | setCleanupDone | setShutdownComplete =>
    exact hc.flag p fun _ => ⟨rfl, rfl, rfl, rfl⟩
  | _ => exact hc

/-! ## The threads -/

/-- No process gives up its session, or finds it lost, while its worker is in its cycle, and the
    session of no such process ends. -/
def Undisturbed : Condition (ι × Thread) Unit (Cloud ι) String Op.Val
  | w, .call t o a, _ => Frees o a = true → ¬(w.remote.process t.1).cycling = true
  | w, .env, w' => ∀ p, (w.remote.process p).cycling = true →
      ∀ s, (w.remote.process p).connection = some s → w'.remote.ended s = w.remote.ended s
  | _, _, _ => True

/-- The contract of the threads: only the worker moves its process in and out of its cycle. -/
def leadership (ι : Type) : Contract (ι × Thread) Unit (Cloud ι) where
  inv w := Exclusive w.remote
  rely t w w' := t.2 = .worker →
    (w'.remote.process t.1).cycling = (w.remote.process t.1).cycling
  step _ _ := True
  rely_refl _ _ _ := rfl
  rely_trans _ _ _ _ h₁ h₂ ht := (h₂ ht).trans (h₁ ht)
  step_refl _ := trivial

/-- A program outside the cycle. -/
abbrev Plainly {α : Type} (p : Proc α) : Prop := p.All (fun _ => True) Plain

/-- What a thread does to its process, it does to no other worker. -/
theorem Spares.keeps {t : ι × Thread} {o : Op} {w w' : World Unit (Cloud ι)}
    (h : Spares t.1 o w.remote w'.remote) (ho : t.2 = .worker ∨ Plain o)
    (hw : Exclusive w'.remote) : (leadership ι).Keeps t w w' := by
  refine ⟨hw, ?_, trivial⟩
  rintro ⟨q, u⟩ hne rfl
  by_cases hq : q = t.1
  · subst hq
    rcases ho with ht | ho
    · exact absurd (Prod.ext rfl ht.symm : (t.1, Thread.worker) = t) hne
    · exact h.cycling ho
  · exact congrArg _ (h.others q hq)

theorem calm_plain (t : ι × Thread) :
    Calm (cloud ι) Undisturbed (leadership ι) t (fun _ => True) Plain where
  sync _ w _ hw _ := ⟨⟨hw, fun _ _ _ => rfl, trivial⟩, fun _ => rfl⟩
  call o w a r ho hw ha hok := by
    have hspares := Answers.spares ha
    have hkeeps : (leadership ι).Keeps t w ⟨w.mem, r⟩ :=
      hspares.keeps (.inr ho) (Answers.exclusive ha hw ho hok)
    exact ⟨hkeeps, fun _ => hspares.cycling ho⟩

theorem plain_request {o : Op} (ho : Plain o) : Plainly (Prog.request o : Proc o.Val) :=
  .request ho

theorem orchestratorStop_plain : Plainly orchestratorStop :=
  .bind (plain_request trivial) fun _ => plain_request trivial

theorem startWorkersOnce_plain : Plainly startWorkersOnce := by
  refine .bind (plain_request trivial) fun started => ?_
  split
  · exact .ret _
  · refine .bind (plain_request trivial) fun stopping => ?_
    split
    · exact .bind (plain_request trivial) fun _ => .ret _
    · refine .bind (.attempt (plain_request trivial)) fun start => ?_
      cases start with
      | error e => exact .bind (plain_request trivial) fun _ => .ret _
      | ok _ => exact .bind (plain_request trivial) fun _ => .ret _

theorem promoteFromStandbyOnce_plain : Plainly promoteFromStandbyOnce := by
  refine .bind (plain_request trivial) fun stopping => ?_
  split
  · exact .ret _
  · refine .bind (plain_request trivial) fun leader => ?_
    split
    · refine .bind (plain_request trivial) fun stopping => ?_
      split
      · exact .bind (plain_request trivial) fun _ => .ret _
      · refine .bind (plain_request trivial) fun started => ?_
        split
        · exact .ret _
        · exact startWorkersOnce_plain
    · exact .ret _

theorem monitor_plain : Plainly monitor := by
  refine .bind (plain_request trivial) fun _ => .bind (plain_request trivial) fun stopping => ?_
  split
  · exact plain_request trivial
  · refine .bind promoteFromStandbyOnce_plain fun promoted => ?_
    split
    · exact plain_request trivial
    · exact .ret _

theorem guardedStart_plain : Plainly guardedStart := by
  refine .bind (plain_request trivial) fun leader => ?_
  split
  · exact .bind startWorkersOnce_plain fun _ => .ret _
  · exact plain_request trivial

theorem shutdownWorker_plain : Plainly shutdownWorker :=
  .bind orchestratorStop_plain fun _ => .bind (plain_request trivial) fun _ => plain_request trivial

theorem requestShutdown_plain : Plainly requestShutdown := by
  refine .bind (plain_request trivial) fun _ => .bind (plain_request trivial) fun begins => ?_
  split
  · exact shutdownWorker_plain
  · exact .ret _

theorem finalize_plain : Plainly finalize := by
  refine .bind (plain_request trivial) ?_
  rintro ⟨complete | complete, cleanupNeeded | cleanupNeeded⟩
  · exact plain_request trivial
  · exact .bind shutdownWorker_plain fun _ => plain_request trivial
  · exact .ret _
  · exact .ret _

theorem main_plain : Plainly main :=
  .bind guardedStart_plain fun _ => .bind (plain_request trivial) fun _ =>
    .bind finalize_plain fun _ => plain_request trivial

theorem apiRequest_plain : Plainly apiRequest := by
  refine .bind (plain_request trivial) fun mutation => .bind (plain_request trivial) fun leader => ?_
  split
  · exact plain_request trivial
  · exact .ret _

/-! ## The worker -/

/-- The rules for a worker whose contract is that of the leadership. -/
abbrev Does (p : ι) {α : Type} (P : World Unit (Cloud ι) → Prop) (prog : Proc α)
    (Q : α → World Unit (Cloud ι) → Prop) : Prop :=
  Triple (cloud ι) Undisturbed (leadership ι) (p, .worker) P prog Q fun _ _ => True

/-- The process is in its cycle. -/
def InCycle (p : ι) (w : World Unit (Cloud ι)) : Prop := (w.remote.process p).cycling = true

omit [DecidableEq ι] in
theorem inCycle_stable (p : ι) : (leadership ι).Stable (p, .worker) (InCycle p) :=
  fun _ _ hr _ h => (hr rfl).trans h

theorem plain_does (p : ι) {o : Op} (ho : Plain o) :
    Does p (fun _ => True) (Prog.request o) fun _ _ => True :=
  (calm_plain _).triple (.request ho) (.const True)

/-- A check that finds the process leader begins a cycle. -/
theorem check_does (p : ι) :
    Does p (fun _ => True) (Prog.request Op.check) fun leader w => leader = true → InCycle p w := by
  refine .request (.const True) ?_ (fun _ => .const True) ?_
  · intro leader w w' hr hw h hleader
    exact inCycle_stable p w w' hr hw (h hleader)
  · intro w a c hw _ ha hok
    have hw : Exclusive w.remote := hw
    have hspares := Answers.spares ha
    -- The session is alive and kept, it is lost, or there was none to check.
    cases ha with
    | checkKept hs hleader hlive =>
      have hcycling : Exclusive (w.remote.set p fun s => { s with cycling := true }) :=
        hw.set rfl rfl (fun _ => ⟨_, hs, hlive⟩) fun _ => rfl
      exact ⟨hspares.keeps (.inl rfl) hcycling, fun _ => by simp [InCycle]⟩
    | checkLost reached hleads =>
      have hdrop : Exclusive (w.remote.drop p reached) := hw.drop reached (hok rfl)
      exact ⟨hspares.keeps (.inl rfl) hdrop, fun h => absurd h Bool.false_ne_true⟩
    | checkUnchecked hleads =>
      obtain ⟨hnone, hleader⟩ := hw.not_leads hleads
      have hidle : ¬(w.remote.process p).cycling = true := by
        intro hcycling
        obtain ⟨s, hs, -⟩ := hw.cycling p hcycling
        simp [hnone] at hs
      have hset : Exclusive (w.remote.set p fun s => { s with cycling := s.leader }) := by
        refine hw.set rfl rfl ?_ ?_
        · simp [hleader]
        · intro hrunning
          exact absurd (hw.running p hrunning) hidle
      exact ⟨hspares.keeps (.inl rfl) hset, fun h => absurd (hleader.symm.trans h) Bool.false_ne_true⟩

/-- Only a process in its cycle executes the body. -/
theorem runDueOnce_does (p : ι) : Does p (InCycle p) runDueOnce fun _ _ => True := by
  refine .bind (Q := fun _ _ => True) (.request (inCycle_stable p) (fun _ => .const True)
    (fun _ => .const True) ?_) fun _ => .request (.const True) (fun _ => .const True)
    (fun _ => .const True) ?_
  · intro w a c hw hcycle ha _
    have hw : Exclusive w.remote := hw
    have hspares := Answers.spares ha
    cases ha
    have hrunning : Exclusive (w.remote.set p fun s => { s with running := true }) :=
      hw.set rfl rfl (fun _ => hw.cycling p hcycle) fun _ => hcycle
    exact ⟨hspares.keeps (.inl rfl) hrunning, trivial⟩
  · intro w a c hw _ ha _
    have hw : Exclusive w.remote := hw
    have hspares := Answers.spares ha
    cases ha
    have hidle : Exclusive (w.remote.set p fun s => { s with running := false, cycling := false }) :=
      hw.set rfl rfl (by simp) (by simp)
    exact ⟨hspares.keeps (.inl rfl) hidle, trivial⟩

theorem loop_does (p : ι) : Does p (fun _ => True) loop fun _ _ => True := by
  refine .bind (plain_does p (o := .awaitThread) trivial) fun _ =>
    .bind (plain_does p (o := .stopEvent) trivial) fun stop => ?_
  split
  · exact plain_does p (o := .threadEnds) trivial
  · refine .bind (check_does p) fun leader => ?_
    cases leader with
    | true =>
      exact (runDueOnce_does p).conseq (fun _ _ h => h rfl) (fun _ _ _ h => h) fun _ _ _ h => h
    | false =>
      exact (plain_does p (o := .startPromotion) trivial).conseq (fun _ _ _ => trivial)
        (fun _ _ _ h => h) fun _ _ _ h => h

/-! ## All threads -/

theorem body_does (t : ι × Thread) :
    Triple (cloud ι) Undisturbed (leadership ι) t (fun _ => True) ((cloud ι).body t)
      (fun _ _ => True) fun _ _ => True := by
  obtain ⟨p, thread⟩ := t
  cases thread with
  | main => exact (calm_plain _).triple main_plain (.const True)
  | worker => exact loop_does p
  | promotion => exact (calm_plain _).triple monitor_plain (.const True)
  | shutdown => exact (calm_plain _).triple requestShutdown_plain (.const True)
  | api n => exact (calm_plain _).triple apiRequest_plain (.const True)

theorem cloud_verified :
    Verified (cloud ι) Undisturbed (leadership ι) (fun _ _ => True) fun _ _ => True where
  body := body_does
  loop _ _ _ _ _ := trivial
  cut _ _ _ _ _ := trivial
  env := by
    rintro w _ hw (rfl | ⟨s, -, rfl⟩) hok
    · exact ⟨hw, fun _ _ => rfl, trivial⟩
    refine ⟨Exclusive.endSession hw ?_, fun _ _ => rfl, trivial⟩
    intro p hp hs
    obtain ⟨s', hs', hlive⟩ := Exclusive.cycling hw p hp
    obtain rfl : s = s' := Option.some.inj (hs.symm.trans hs')
    have hended := hok p hp s hs
    simp [Cloud.endSession, hlive] at hended

omit [DecidableEq ι] in
theorem deployed_exclusive : Exclusive (deployed ι) where
  known := by simp [deployed]
  distinct := by simp [deployed]
  leader := by simp [deployed]
  held := by simp [deployed]
  cycling := by simp [deployed]
  running := by simp [deployed]

/-- At most one process at a time executes the body of its cycle, whatever the threads of any
    number of processes do, as long as no process gives up or loses its session while its worker
    is in its cycle. -/
theorem one_leader (c : Config (ι × Thread) Unit (Cloud ι) String Op.Val)
    (h : Run (cloud ι) Undisturbed ((cloud ι).start ⟨(), deployed ι⟩) c) :
    c.world.remote.OneRuns :=
  Exclusive.oneRuns (cloud_verified.run (w := ⟨(), deployed ι⟩) deployed_exclusive
    (fun _ => trivial) h)

/-- A step that meets the condition: a session ends when no process is in its cycle. -/
def disturbsNone : World Unit (Cloud (Fin 2)) → Label (Fin 2 × Thread) String Op.Val →
    World Unit (Cloud (Fin 2)) → Bool
  | w, .call t o a, _ => !(Frees o a && (w.remote.process t.1).cycling)
  | w, .env, _ => decide (∀ p, (w.remote.process p).cycling = false)
  | _, _, _ => true

theorem undisturbed_of_disturbsNone (w : World Unit (Cloud (Fin 2)))
    (l : Label (Fin 2 × Thread) String Op.Val) (w' : World Unit (Cloud (Fin 2)))
    (h : disturbsNone w l w' = true) : Undisturbed w l w' := by
  cases l with
  | call t o a =>
    intro hfrees hcycling
    simp [disturbsNone, hfrees, hcycling] at h
  | env =>
    intro p hp
    have hnone : ∀ p, (w.remote.process p).cycling = false := of_decide_eq_true h
    exact absurd ((hnone p).symm.trans hp) (by decide)
  | _ => trivial

/-- A process begins a cycle, and another one is denied; when the cycle and the session of the first
    one are over, the second one is promoted, and begins a cycle. -/
theorem one_leader_follows : ∃ c₁ c₂ : Config (Fin 2 × Thread) Unit (Cloud (Fin 2)) String Op.Val,
    Run (cloud (Fin 2)) Undisturbed ((cloud (Fin 2)).start ⟨(), deployed (Fin 2)⟩) c₁ ∧
    Run (cloud (Fin 2)) Undisturbed c₁ c₂ ∧
    (c₁.world.remote.process 0).running = true ∧ (c₁.world.remote.process 1).promoting = true ∧
    (c₂.world.remote.process 1).running = true ∧ c₁.world.remote.OneRuns ∧
    c₂.world.remote.OneRuns := by
  have hplay : (playMeeting (cloud (Fin 2)) disturbsNone
      ((cloud (Fin 2)).start ⟨(), deployed (Fin 2)⟩) (begins 0 ++ waits 1)).any fun c₁ =>
        (playMeeting (cloud (Fin 2)) disturbsNone c₁ (follows 0 1)).any fun c₂ =>
          (c₁.world.remote.process 0).running && (c₁.world.remote.process 1).promoting &&
            (c₂.world.remote.process 1).running := by decide +kernel
  obtain ⟨c₁, hc₁, hplay⟩ := (Option.any_eq_true _ _).1 hplay
  obtain ⟨c₂, hc₂, hplay⟩ := (Option.any_eq_true _ _).1 hplay
  obtain ⟨hplay, hsecond⟩ := Bool.and_eq_true_iff.1 hplay
  obtain ⟨hfirst, hpromoting⟩ := Bool.and_eq_true_iff.1 hplay
  have hfair : ∀ m ∈ begins 0 ++ waits 1, m.Fair (cloud (Fin 2)) :=
    List.forall_mem_append.2 ⟨begins_fair 0, waits_fair 1⟩
  have h₁ := (Run.of_playMeeting hfair hc₁).mono undisturbed_of_disturbsNone
  have h₂ := (Run.of_playMeeting (follows_fair 0 1) hc₂).mono undisturbed_of_disturbsNone
  exact ⟨c₁, c₂, h₁, h₂, hfirst, hpromoting, hsecond, one_leader c₁ h₁, one_leader c₂ (h₁.trans h₂)⟩

/-- The session of a process ends in its cycle, and another process begins its own. -/
theorem two_leaders :
    ¬∀ c : Config (Fin 2 × Thread) Unit (Cloud (Fin 2)) String Op.Val,
      Run (cloud (Fin 2)) (fun _ _ _ => True) ((cloud (Fin 2)).start ⟨(), deployed (Fin 2)⟩) c →
      c.world.remote.OneRuns := by
  intro hall
  have hplay : (playAll (cloud (Fin 2)) ((cloud (Fin 2)).start ⟨(), deployed (Fin 2)⟩)
      (begins 0 ++ firstEnds :: begins 1)).any
      (fun c => (c.world.remote.process 0).running && (c.world.remote.process 1).running) = true := by
    decide +kernel
  obtain ⟨c, hc, hrunning⟩ := (Option.any_eq_true _ _).1 hplay
  have hfair : ∀ m ∈ begins 0 ++ firstEnds :: begins 1, m.Fair (cloud (Fin 2)) := by
    intro m hm
    rcases List.mem_append.1 hm with hm | hm
    · exact begins_fair 0 m hm
    · rcases List.mem_cons.1 hm with rfl | hm
      · exact firstEnds_fair
      · exact begins_fair 1 m hm
  obtain ⟨h0, h1⟩ := Bool.and_eq_true_iff.1 hrunning
  exact absurd (hall c (Run.of_playAll hfair hc) 0 1 h0 h1) (by decide)

end IntradayBot.Leader
