import IntradayBot.Coop.Rely
import IntradayBot.Handoff.RunOnce

/-!
# The active claim

A claim whose outcome is not known should stay under the active key (`Store.Kept`). A process
takes the key with a conditional write, but rewrites and clears it without a condition: what
it rewrites or clears is its own claim only while nobody else is at work on that claim.

A claim that is settled is nobody's: any process that finds it completes it, also while the
process that made it is still completing it. The slower of the two then clears the key under
which the faster one has put its next claim (`active_claim_lost`). A delete that fails
after its effect does the same: the key is free for another process, and its claim is
overwritten by the handler of the first one.

Both need a process that takes a claim in hand while another one has one. In the runs where that
never happens (`Alone`), the key holds the claim (`active_claim_kept`).
-/

namespace IntradayBot.Handoff

open Coop

variable {sha256 : String → String} {ι : Type}

/-- Every claim whose outcome is not known is under the active key. -/
def Store.Kept (s : Store) : Prop :=
  ∀ X state, s.written X = some state → state.Active →
    ∃ c, s.active = some c ∧ c.claimId = X ∧ c.state = state

/-- A process takes a claim in hand only while no other one is at work on a claim: when it takes
    the key, which was free, and when it finds a settled claim. -/
structure Alone (w : World Unit (Durable ι)) (l : Label ι String Op.Val)
    (w' : World Unit (Durable ι)) : Prop where
  claims : ∀ i c a, l = .call i (.store (.putActiveIfAbsent c)) a →
    w.remote.store.active = none → w'.remote.store.active ≠ none →
    ∀ j, j ≠ i → w.remote.hands j = none
  recovers : ∀ i c, l = .call i (.store (.getActive true)) (.ok (some c)) → c.state.Settled →
    ∀ j, j ≠ i → w.remote.hands j = none

/-- At most one process is at work on a claim, and that claim has the key. -/
structure Holding (d : Durable ι) : Prop where
  kept : d.store.Kept
  written : ∀ c, d.store.active = some c → d.store.written c.claimId = some c.state
  sole : ∀ i j, d.hands i ≠ none → d.hands j ≠ none → i = j
  own : ∀ i X c, d.hands i = some X → d.store.active = some c → c.claimId = X

/-- The contract of the processes: the others leave alone the claim in one's hand. -/
def holdings (ι : Type) : Contract ι Unit (Durable ι) where
  inv w := Holding w.remote
  rely i w w' := w'.remote.hands i = w.remote.hands i ∧ ∀ X, w.remote.hands i = some X →
    w'.remote.store.written X = w.remote.store.written X
  step _ _ := True
  rely_refl _ _ := ⟨rfl, fun _ _ => rfl⟩
  rely_trans _ _ _ _ h₁ h₂ :=
    ⟨h₂.1.trans h₁.1, fun X h => (h₂.2 X (h₁.1.trans h)).trans (h₁.2 X h)⟩
  step_refl _ := trivial

/-- The process is at work on the claim. -/
def Has (i : ι) (X : String) (w : World Unit (Durable ι)) : Prop := w.remote.hands i = some X

/-- The process is at work on no claim. -/
def Idle (i : ι) (w : World Unit (Durable ι)) : Prop := w.remote.hands i = none

/-- It wrote the claim in this state. -/
structure Wrote (i : ι) (X : String) (state : ClaimState) (w : World Unit (Durable ι)) : Prop where
  has : Has i X w
  written : w.remote.store.written X = some state

theorem has_stable (i : ι) (X : String) : (holdings ι).Stable i (Has i X) :=
  fun _ _ hr _ h => hr.1.trans h

theorem idle_stable (i : ι) : (holdings ι).Stable i (Idle i) := fun _ _ hr _ h => hr.1.trans h

theorem wrote_stable (i : ι) (X : String) (state : ClaimState) :
    (holdings ι).Stable i (Wrote i X state) :=
  fun _ _ hr _ h => ⟨hr.1.trans h.has, (hr.2 X h.has).trans h.written⟩

theorem any_stable (i : ι) : (holdings ι).Stable i fun _ => True := .const True

/-! ## The steps -/

/-- Who has which claim does not change, nor the state of the active one. -/
structure Aside (d d' : Durable ι) : Prop where
  hands : d'.hands = d.hands
  written : d'.store.written = d.store.written
  owner : ∀ c', d'.store.active = some c' → ∃ c, d.store.active = some c ∧ SameOwner c' c
  active : ∀ c, d.store.active = some c → ∃ c', d'.store.active = some c' ∧ SameOwner c' c

theorem Aside.of_active {d d' : Durable ι} (hands : d'.hands = d.hands)
    (written : d'.store.written = d.store.written) (active : d'.store.active = d.store.active) :
    Aside d d' :=
  ⟨hands, written, fun c hc => ⟨c, active ▸ hc, rfl, rfl⟩, fun c hc => ⟨c, active ▸ hc, rfl, rfl⟩⟩

theorem Aside.holding {d d' : Durable ι} (h : Aside d d') (hd : Holding d) : Holding d' where
  kept X state hX hs := by
    obtain ⟨c, hc, rfl, rfl⟩ := hd.kept X state (h.written ▸ hX) hs
    obtain ⟨c', hc', hid, hstate⟩ := h.active c hc
    exact ⟨c', hc', hid, hstate⟩
  written c' hc' := by
    obtain ⟨c, hc, hid, hstate⟩ := h.owner c' hc'
    rw [h.written, hid, hstate]
    exact hd.written c hc
  sole := h.hands ▸ hd.sole
  own i X c' hi hc' := by
    obtain ⟨c, hc, hid, -⟩ := h.owner c' hc'
    exact hid.trans (hd.own i X c (h.hands ▸ hi) hc)

theorem Aside.relies {w w' : World Unit (Durable ι)} (h : Aside w.remote w'.remote) (i : ι) :
    (holdings ι).rely i w w' :=
  ⟨congrFun h.hands i, fun X _ => congrFun h.written X⟩

theorem Aside.keeps {i : ι} {w w' : World Unit (Durable ι)} (h : Aside w.remote w'.remote)
    (hw : Holding w.remote) : (holdings ι).Keeps i w w' :=
  ⟨h.holding hw, fun j _ => h.relies j, trivial⟩

/-- A conditional write in the name of the owner. -/
theorem aside_compareAndSwap {d : Durable ι} (hd : Holding d) {expected replacement : Claim}
    (h : SameOwner replacement expected) :
    Aside d { d with
      store := (StoreOp.perform (.compareAndSwapActive expected replacement) d.store).2 } := by
  by_cases hactive : d.store.active = some expected
  · have hw := hd.written expected hactive
    refine ⟨rfl, ?_, fun c' hc' => ⟨expected, hactive, ?_⟩, fun c hc => ⟨replacement, ?_, ?_⟩⟩
    · simp [StoreOp.perform, hactive, Store.activate, h.1, h.2, ← hw]
    · obtain rfl : replacement = c' := by
        simpa [StoreOp.perform, hactive, Store.activate] using hc'
      exact h
    · simp [StoreOp.perform, hactive, Store.activate]
    · obtain rfl : expected = c := by simpa [hactive] using hc
      exact h
  · exact .of_active rfl (by simp [StoreOp.perform, hactive])
      (by simp [StoreOp.perform, hactive])

section

variable [DecidableEq ι]

theorem Aside.note {i : ι} {o : StoreOp} {d d' : Durable ι} (h : Aside d d')
    (ho : Minor (.store o)) (v : o.Val) : Aside d (d'.note i o v) := by
  have hands : (d'.note i o v).hands = d'.hands := by
    cases o with
    | getActive recovering =>
      cases recovering with
      | false => rfl
      | true => exact ho.elim
    | putLedgerIfAbsent key r => cases v <;> rfl
    | putActiveIfAbsent c | deleteActive => exact ho.elim
    | _ => rfl
  exact ⟨hands.trans h.hands, by simpa using h.written, by simpa using h.owner,
    by simpa using h.active⟩

omit [DecidableEq ι] in
theorem aside_perform {d : Durable ι} (hd : Holding d) {o : StoreOp} (ho : Minor (.store o)) :
    Aside d { d with store := (o.perform d.store).2 } := by
  cases o with
  | compareAndSwapActive expected replacement => exact aside_compareAndSwap hd ho
  | putActive c | putActiveIfAbsent c | deleteActive => exact ho.elim
  | putLedgerIfAbsent key r =>
    refine .of_active rfl ?_ ?_ <;> (simp only [StoreOp.perform]; split <;> rfl)
  | _ => exact .of_active rfl rfl rfl

/-- The requests that leave the claims alone. -/
def Handling (o : Op) : Prop := Minor o ∨ ∃ c link, o = .submit c link

theorem Answers.aside {i : ι} {o : Op} {d d' : Durable ι} {a : Except String o.Val}
    (h : Answers i o d a d') (hd : Holding d) (ho : Handling o) : Aside d d' := by
  have same : Aside d d := .of_active rfl rfl rfl
  rcases ho with ho | ⟨c, link, rfl⟩
  · cases h with
    | done o => exact (aside_perform hd ho).note ho _
    | unacknowledged o => exact aside_perform hd ho
    | submit | release => exact ho.elim
    | _ => exact same
  · cases h
    exact .of_active rfl rfl rfl

theorem calm_handling (i : ι) :
    Calm (handoff sha256 ι) Alone (holdings ι) i (fun _ => True) Handling where
  sync _ w _ hw _ :=
    have h : Aside w.remote w.remote := .of_active rfl rfl rfl
    have hrelies : (holdings ι).rely i w w := h.relies i
    ⟨h.keeps hw, hrelies⟩
  call _ w _ r ho hw ha _ :=
    have h : Aside w.remote r := Answers.aside ha hw ho
    have hkeeps : (holdings ι).Keeps i w ⟨w.mem, r⟩ := h.keeps hw
    have hrelies : (holdings ι).rely i w ⟨w.mem, r⟩ := h.relies i
    ⟨hkeeps, hrelies⟩

/-! ## The claim in hand -/

variable {i : ι} {X : String} {claim : Claim} {timestamp : ℕ}

/-- The rules for a process whose contract is that of the claims in hand. -/
abbrev Tends (sha256 : String → String) (i : ι) {α : Type} (P : World Unit (Durable ι) → Prop)
    (p : Proc α) (Q : α → World Unit (Durable ι) → Prop) (E : World Unit (Durable ι) → Prop) :
    Prop :=
  Triple (handoff sha256 ι) Alone (holdings ι) i P p Q fun _ => E

/-- A program that leaves the claims alone. -/
abbrev Handles {α : Type} (p : Proc α) : Prop := p.All (fun _ => True) Handling

theorem Minors.handles {α : Type} {p : Proc α} (h : Minors p) : Handles p :=
  h.mono (fun _ h => h) fun _ => .inl

theorem Handles.tends {α : Type} {p : Proc α} (hp : Handles p)
    {P : World Unit (Durable ι) → Prop} (hP : (holdings ι).Stable i P) :
    Tends sha256 i P p (fun _ => P) P :=
  (calm_handling i).triple hp hP

omit [DecidableEq ι] in
theorem Has.alone {w : World Unit (Durable ι)} (h : Has i X w) (hw : Holding w.remote) :
    ∀ j, j ≠ i → w.remote.hands j = none := by
  intro j hj
  by_contra hne
  have hi : w.remote.hands i = some X := h
  exact hj (hw.sole j i hne (by simp [hi]))

section

variable {hands : ι → Option String}

omit [DecidableEq ι] in
theorem eq_of_alone (h : ∀ j, j ≠ i → hands j = none) {j : ι} (hj : hands j ≠ none) : j = i := by
  by_contra hne
  exact hj (h j hne)

omit [DecidableEq ι] in
theorem sole_of_alone (h : ∀ j, j ≠ i → hands j = none) (j k : ι) (hj : hands j ≠ none)
    (hk : hands k ≠ none) : j = k :=
  (eq_of_alone h hj).trans (eq_of_alone h hk).symm

end

omit [DecidableEq ι] in
/-- Nobody else has a claim. -/
theorem keeps_of_alone {w w' : World Unit (Durable ι)}
    (halone : ∀ j, j ≠ i → w.remote.hands j = none)
    (halone' : ∀ j, j ≠ i → w'.remote.hands j = none) (hw' : Holding w'.remote) :
    (holdings ι).Keeps i w w' :=
  ⟨hw', fun j hj => ⟨(halone' j hj).trans (halone j hj).symm, fun X hX => by
    simp [halone j hj] at hX⟩, trivial⟩

omit [DecidableEq ι] in
/-- The key is written by the only process that is at work on a claim, which is the claim under
    the key if there is one. -/
theorem Holding.activate {d d' : Durable ι} (hd : Holding d)
    (hactive : ∀ c, d.store.active = some c → c.claimId = claim.claimId)
    (store : d'.store = d.store.activate claim) (halone : ∀ j, j ≠ i → d'.hands j = none)
    (hhand : ∀ X, d'.hands i = some X → X = claim.claimId) : Holding d' where
  kept X state hX hs := by
    rw [store] at hX ⊢
    by_cases h : X = claim.claimId
    · obtain rfl : claim.state = state := by simpa [Store.activate, h] using hX
      exact ⟨claim, rfl, h.symm, rfl⟩
    · have hX : d.store.written X = some state := by simpa [Store.activate, h] using hX
      obtain ⟨c, hc, hid, -⟩ := hd.kept X state hX hs
      exact absurd (hid.symm.trans (hactive c hc)) h
  written c hc := by
    obtain rfl : claim = c := by simpa [store, Store.activate] using hc
    simp [store, Store.activate]
  sole := sole_of_alone halone
  own j X c hj hc := by
    obtain rfl : claim = c := by simpa [store, Store.activate] using hc
    obtain rfl : j = i := eq_of_alone halone (by simp [hj])
    exact (hhand X hj).symm

omit [DecidableEq ι] in
/-- The key is cleared by the only process that is at work on a claim, which is settled. -/
theorem Holding.clear {d d' : Durable ι} (hd : Holding d) (hX : d.hands i = some X)
    (hdone : d.store.written X = some .completed)
    (store : d'.store = { d.store with active := none })
    (halone : ∀ j, j ≠ i → d'.hands j = none) : Holding d' where
  kept Y state hY hs := by
    have hY : d.store.written Y = some state := by simpa [store] using hY
    obtain ⟨c, hc, hid, -⟩ := hd.kept Y state hY hs
    obtain rfl : X = Y := (hd.own i X c hX hc).symm.trans hid
    obtain rfl : ClaimState.completed = state := Option.some.inj (hdone.symm.trans hY)
    exact absurd hs (by decide)
  written c hc := by simp [store] at hc
  sole := sole_of_alone halone
  own j Y c _ hc := by simp [store] at hc

/-- The claim in hand is rewritten. -/
theorem put_tends (hX : claim.claimId = X) :
    Tends sha256 i (Has i X) (store (.putActive claim)) (fun _ => Wrote i X claim.state)
      (Has i X) := by
  subst hX
  refine .request (has_stable i _) (fun _ => wrote_stable i _ _) (fun _ => has_stable i _)
    fun w a r hw hhas ha _ => ?_
  have hw : Holding w.remote := hw
  have halone := hhas.alone hw
  have hafter : Holding { w.remote with store := w.remote.store.activate claim } :=
    hw.activate (fun c hc => hw.own i _ c hhas hc) rfl halone fun X hX =>
      Option.some.inj (hX.symm.trans hhas)
  cases ha with
  | done o =>
    exact ⟨keeps_of_alone halone halone hafter, hhas, by
      simp [StoreOp.perform, Store.activate, Durable.note]⟩
  | unacknowledged o => exact ⟨keeps_of_alone halone halone hafter, hhas⟩
  | lost o => exact ⟨keeps_of_alone halone halone hw, hhas⟩

/-- The key is cleared once the claim in hand is completed. -/
theorem delete_tends : Tends sha256 i (Wrote i X .completed) (store .deleteActive)
    (fun _ _ => True) (Has i X) := by
  refine .request (wrote_stable i _ _) (fun _ => any_stable i) (fun _ => has_stable i _)
    fun w a r hw hwrote ha _ => ?_
  have hw : Holding w.remote := hw
  have halone := hwrote.has.alone hw
  cases ha with
  | done o =>
    have halone' : ∀ j, j ≠ i → Function.update w.remote.hands i none j = none := fun j hj => by
      simp [hj, halone j hj]
    exact ⟨keeps_of_alone halone halone' (hw.clear hwrote.has hwrote.written rfl halone'), trivial⟩
  | unacknowledged o =>
    have hafter : Holding { w.remote with store := { w.remote.store with active := none } } :=
      hw.clear hwrote.has hwrote.written rfl halone
    exact ⟨keeps_of_alone halone halone hafter, hwrote.has⟩
  | lost o => exact ⟨keeps_of_alone halone halone hw, hwrote.has⟩

/-- A claim is made where there is none. -/
theorem claim_tends : Tends sha256 i (Idle i) (store (.putActiveIfAbsent claim))
    (fun created w => created = true → Has i claim.claimId w) fun _ => True := by
  refine .request (idle_stable i) (fun _ w w' hr hw' h hc => has_stable i _ w w' hr hw' (h hc))
    (fun _ => any_stable i) fun w a r hw hidle ha hok => ?_
  have hw : Holding w.remote := hw
  -- The claim is taken only where none was active, and then nobody else has one in hand.
  by_cases hfree : w.remote.store.active = none
  · have hactive : ∀ c, w.remote.store.active = some c → c.claimId = claim.claimId := fun c hc => by
      simp [hfree] at hc
    have hperform : (StoreOp.putActiveIfAbsent claim).perform w.remote.store =
        (true, w.remote.store.activate claim) := by simp [StoreOp.perform, hfree]
    cases ha with
    | done o =>
      rw [hperform] at hok ⊢
      have halone := hok.claims i claim _ rfl hfree (by simp [Store.activate])
      have halone' : ∀ j, j ≠ i → Function.update w.remote.hands i (some claim.claimId) j = none :=
        fun j hj => by simp [hj, halone j hj]
      exact ⟨keeps_of_alone halone halone' (hw.activate hactive rfl halone' fun X hX => by
        simpa [Durable.note, eq_comm] using hX), fun _ => by simp [Has, Durable.note]⟩
    | unacknowledged o =>
      rw [hperform] at hok ⊢
      have halone := hok.claims i claim _ rfl hfree (by simp [Store.activate])
      exact ⟨keeps_of_alone halone halone (hw.activate hactive rfl halone fun X hX => by
        exact absurd (hidle.symm.trans hX) (Option.some_ne_none _).symm), trivial⟩
    | lost o => exact ⟨⟨hw, fun j _ => (holdings ι).rely_refl j w, trivial⟩, trivial⟩
  · have hperform : (StoreOp.putActiveIfAbsent claim).perform w.remote.store =
        (false, w.remote.store) := by simp [StoreOp.perform, hfree]
    have hsame : (holdings ι).Keeps i w w := ⟨hw, fun j _ => (holdings ι).rely_refl j w, trivial⟩
    cases ha with
    | done o =>
      rw [hperform]
      exact ⟨hsame, fun h => absurd h Bool.false_ne_true⟩
    | unacknowledged o =>
      rw [hperform]
      exact ⟨hsame, trivial⟩
    | lost o => exact ⟨hsame, trivial⟩

/-- A settled claim is taken in hand by the process that finds it. -/
theorem load_tends : Tends sha256 i (Idle i) (store (.getActive true))
    (fun active w => (active = none → Idle i w) ∧
      ∀ c, active = some c → c.state.Settled → Has i c.claimId w) fun _ => True := by
  refine .request (idle_stable i) (fun active => ?_) (fun _ => any_stable i)
    fun w a r hw hidle ha hok => ?_
  · intro w w' hr hw' h
    exact ⟨fun hnone => idle_stable i w w' hr hw' (h.1 hnone), fun c hc hs =>
      has_stable i _ w w' hr hw' (h.2 c hc hs)⟩
  have hw : Holding w.remote := hw
  have hsame : (holdings ι).Keeps i w w := ⟨hw, fun j _ => (holdings ι).rely_refl j w, trivial⟩
  cases ha with
  | done o =>
    cases hactive : w.remote.store.active with
    | none =>
      have hperform : (StoreOp.getActive true).perform w.remote.store = (none, w.remote.store) := by
        simp [StoreOp.perform, hactive]
      rw [hperform]
      exact ⟨hsame, fun _ => hidle, fun c hc => absurd hc (Option.some_ne_none c).symm⟩
    | some c =>
      have hperform : (StoreOp.getActive true).perform w.remote.store =
          (some c, w.remote.store) := by simp [StoreOp.perform, hactive]
      rw [hperform] at hok ⊢
      -- A settled claim passes into the hands of the worker that read it.
      by_cases hs : c.state.Settled
      · have halone := hok.recovers i c rfl hs
        have halone' : ∀ j, j ≠ i → Function.update w.remote.hands i (some c.claimId) j = none :=
          fun j hj => by simp [hj, halone j hj]
        have hnote : w.remote.note i (.getActive true) (some c) =
            { w.remote with hands := Function.update w.remote.hands i (some c.claimId) } := by
          simp [Durable.note, hs]
        rw [hnote]
        refine ⟨keeps_of_alone halone halone' ⟨hw.kept, hw.written, sole_of_alone halone', ?_⟩,
          fun h => absurd h (Option.some_ne_none c), fun c' hc' _ => ?_⟩
        · intro j X c' hj hc'
          obtain rfl : c = c' := Option.some.inj (hactive.symm.trans hc')
          obtain rfl : j = i := eq_of_alone halone' (fun h => by simp [h] at hj)
          simpa using hj
        · obtain rfl : c = c' := Option.some.inj hc'
          exact Function.update_self ..
      · have hnote : w.remote.note i (.getActive true) (some c) = w.remote := by
          simp [Durable.note, hs]
        rw [hnote]
        refine ⟨hsame, fun h => absurd h (Option.some_ne_none c), fun c' hc' hs' => ?_⟩
        obtain rfl : c = c' := Option.some.inj hc'
        exact absurd hs' hs
  | unacknowledged o => exact ⟨hsame, trivial⟩
  | lost o => exact ⟨hsame, trivial⟩

/-- Whatever was in hand is left. -/
theorem release_tends : Tends sha256 i (fun _ => True) (Prog.request Op.release)
    (fun _ => Idle i) fun _ => True := by
  refine .request (any_stable i) (fun _ => idle_stable i) (fun _ => any_stable i)
    fun w a r hw _ ha _ => ?_
  have hw : Holding w.remote := hw
  cases ha with
  | release =>
    have others : ∀ j X, Function.update w.remote.hands i none j = some X →
        w.remote.hands j = some X := fun j X hj => by
      by_cases h : j = i
      · simp [h] at hj
      · simpa [h] using hj
    refine ⟨⟨⟨hw.kept, hw.written, fun j k hj hk => ?_, fun j X c hj hc => ?_⟩, fun j hj => ?_,
      trivial⟩, by simp [Idle]⟩
    · obtain ⟨X, hX⟩ := Option.ne_none_iff_exists'.1 hj
      obtain ⟨Y, hY⟩ := Option.ne_none_iff_exists'.1 hk
      exact hw.sole j k (by simp [others j X hX]) (by simp [others k Y hY])
    · exact hw.own j X c (others j X hj) hc
    · exact ⟨by simp [hj], fun _ _ => rfl⟩

/-! ## The programs -/

section

attribute [local irreducible] Prog.require ite

theorem present_tends {α : Type} {P : World Unit (Durable ι) → Prop} (hP : (holdings ι).Stable i P)
    (value : Option α) (message : String) :
    Tends sha256 i P (present value message) (fun _ => P) P :=
  (present_minor value message).handles.tends hP

theorem require_tends {P : World Unit (Durable ι) → Prop} (hP : (holdings ι).Stable i P)
    (p : Prop) [Decidable p] (e : String) :
    Tends sha256 i P (Prog.require p e) (fun _ w => p ∧ P w) P :=
  .require ((Contract.Stable.const p).and hP) hP (fun hp _ _ h => ⟨hp, h⟩) fun _ _ _ h => h

theorem persistClaim_tends (hX : claim.claimId = X) :
    Tends sha256 i (Has i X) (persistClaim claim)
      (fun saved w => saved.claimId = X ∧ Wrote i X claim.state w) (Has i X) := by
  have hwrote := wrote_stable i X claim.state
  have weaken : ∀ {α : Type} {P : World Unit (Durable ι) → Prop} {p : Proc α}
      {Q : α → World Unit (Durable ι) → Prop},
      Tends sha256 i P p Q (Wrote i X claim.state) → Tends sha256 i P p Q (Has i X) := fun h =>
    h.conseq (fun _ _ h => h) (fun _ _ _ h => h) fun _ _ _ h => h.has
  refine .bind (put_tends hX) fun _ => weaken ?_
  refine .bind (getActive_minor.handles.tends hwrote) fun active =>
    .bind (present_tends hwrote active _) fun saved => .bind (require_tends hwrote _ _) fun _ => ?_
  refine .of_forall fun _ _ hid => .conseq (.bind (require_tends hwrote _ _) fun _ =>
    .done_ok ((Contract.Stable.const _).and hwrote) fun _ _ h => ⟨hid.1.trans hX, h.2⟩)
    (fun _ _ h => h.2) (fun _ _ _ h => h) fun _ _ _ h => h

/-- The claim that is enriched is the one given. -/
theorem ensureClaimMetadata_tends (claim : Claim) (timestamp : ℕ) :
    Tends sha256 i (fun _ => True) (ensureClaimMetadata sha256 claim timestamp)
      (fun enriched _ => SameOwner enriched.1 claim) fun _ => True := by
  have htrue := any_stable i
  have minor : ∀ {α : Type} {P : World Unit (Durable ι) → Prop} {p : Proc α}, Minors p →
      Tends sha256 i P p (fun _ _ => True) fun _ => True := fun h =>
    (h.handles.tends htrue).conseq (fun _ _ _ => trivial) (fun _ _ _ h => h) fun _ _ _ h => h
  refine .bind (minor getActive_minor) fun _ => .bind (minor (present_minor _ _)) fun current =>
    .bind (require_tends htrue _ _) fun _ => .of_forall fun _ _ howner => ?_
  refine .bind (minor (claimedKey_minor _ _)) fun _ => .bind (minor (claimedRecord_minor _ _ _))
    fun _ => .bind (minor (.require _ _)) fun _ => ?_
  have swap : ∀ current candidateKey,
      Minors (store (.compareAndSwapActive current (enriched sha256 current candidateKey))) :=
    fun _ _ => .request ⟨rfl, rfl⟩
  dsimp only
  split
  · exact .done_ok (.const _) fun _ _ _ => howner.1
  · refine .bind (minor (swap _ _)) fun _ => .bind (minor (.require _ _)) fun _ =>
      .bind (minor getActive_minor) fun _ => .bind (minor (present_minor _ _)) fun saved =>
      .bind (require_tends htrue _ _) fun _ => .done_ok (.const _) fun _ _ h => ?_
    exact ⟨h.1.1.trans howner.1.1, h.1.2.trans howner.1.2⟩

/-- The claim in hand moves to another state. -/
theorem transitionClaim_tends (hX : claim.claimId = X) (state : ClaimState) (timestamp : ℕ) :
    Tends sha256 i (Has i X) (transitionClaim sha256 claim state timestamp)
      (fun updated w => updated.claimId = X ∧ Wrote i X state w) (Has i X) := by
  refine .bind (persistClaim_tends hX) fun saved => .of_forall fun _ _ hsaved => ?_
  have hwrote := wrote_stable i X state
  have enrich : Tends sha256 i (Wrote i X state) (ensureClaimMetadata sha256 saved timestamp)
      (fun enriched w => SameOwner enriched.1 saved ∧ Wrote i X state w) (Has i X) :=
    ((calm_handling i).frame (ensureClaimMetadata_minor _ _).handles hwrote
      (ensureClaimMetadata_tends saved timestamp)).conseq (fun _ _ h => ⟨trivial, h⟩)
      (fun _ _ _ h => h) fun _ _ _ h => h.2.has
  refine .conseq (.bind enrich fun updated => .of_forall fun _ _ howner => ?_)
    (fun _ _ h => h.2) (fun _ _ _ h => h) fun _ _ _ h => h
  have sync : Tends sha256 i (Wrote i X state)
      (syncLedger sha256 updated.2.1 updated.2.2 updated.1 timestamp)
      (fun _ => Wrote i X state) (Wrote i X state) :=
    (syncLedger_minor _ _ _ _).handles.tends hwrote
  exact .conseq (.bind sync fun _ => .done_ok ((Contract.Stable.const _).and hwrote)
      fun _ _ h => ⟨howner.1.1.trans hsaved.1, h⟩)
    (fun _ _ h => h.2) (fun _ _ _ h => h) fun _ _ _ h => h.has

/-- The claim in hand is completed and cleared. -/
theorem archiveAndClearClaim_tends (claim : Claim) :
    Tends sha256 i (Wrote i X .completed) (archiveAndClearClaim claim) (fun _ _ => True)
      (Has i X) := by
  have hwrote := wrote_stable i X .completed
  have put : Minors (store (.putLast claim)) := .request trivial
  have get : Minors (store .getLast) := .request trivial
  have minor : ∀ {α : Type} {p : Proc α}, Minors p →
      Tends sha256 i (Wrote i X .completed) p (fun _ => Wrote i X .completed) (Has i X) := fun h =>
    (h.handles.tends hwrote).conseq (fun _ _ h => h) (fun _ _ _ h => h) fun _ _ _ h => h.has
  exact .bind (minor put) fun _ => .bind (minor get) fun _ => .bind (minor (present_minor _ _))
    fun _ => .bind (minor (.require _ _)) fun _ => delete_tends

theorem completeResolvedClaim_tends (hX : claim.claimId = X) (timestamp : ℕ) :
    Tends sha256 i (Has i X) (completeResolvedClaim sha256 claim timestamp) (fun _ _ => True)
      (Has i X) := by
  have remove : Minors (Prog.request (Op.removeCandidate claim.candidateKey) : Proc _) :=
    .request trivial
  refine .bind (remove.handles.tends (has_stable i X)) fun removed => ?_
  split
  · refine .bind (transitionClaim_tends (by exact hX) _ _) fun completed => ?_
    exact .conseq (archiveAndClearClaim_tends completed) (fun _ _ h => h.2) (fun _ _ _ h => h)
      fun _ _ _ h => h
  · exact .bind (transitionClaim_tends (by exact hX) _ _) fun _ =>
      .done_ok (any_stable i) fun _ _ _ => trivial

theorem recoverOrBlockExistingClaim_tends (claim : Claim) (timestamp : ℕ) :
    Tends sha256 i (fun w => claim.state.Settled → Has i claim.claimId w)
      (recoverOrBlockExistingClaim sha256 claim timestamp) (fun _ _ => True) fun _ => True := by
  have complete : ∀ {claim' : Claim}, claim'.claimId = claim.claimId →
      Tends sha256 i (Has i claim.claimId) (completeResolvedClaim sha256 claim' timestamp)
        (fun _ _ => True) fun _ => True := fun h =>
    (completeResolvedClaim_tends h timestamp).conseq (fun _ _ h => h) (fun _ _ _ h => h)
      fun _ _ _ _ => trivial
  have replay : Minors (Prog.request (Op.replayAccounting claim) : Proc _) := .request trivial
  have skip : ∀ {P : World Unit (Durable ι) → Prop}, Tends sha256 i P (Prog.ret ())
      (fun _ _ => True) fun _ => True := .done_ok (any_stable i) fun _ _ _ => trivial
  -- Only a settled claim is recovered, and for that one the worker has it in hand.
  unfold recoverOrBlockExistingClaim completeRecoveredClaim
  split
  next hs =>
    refine .conseq ?_ (fun _ _ h => h hs) (fun _ _ _ h => h) fun _ _ _ h => h
    split
    · refine .bind (.attempt (R := fun accounted w => Has i claim.claimId w ∧
        ∀ claim', accounted = .ok claim' → claim'.claimId = claim.claimId) ?_) fun accounted => ?_
      · refine .conseq (.bind (replay.handles.tends (has_stable i _)) fun _ =>
          transitionClaim_tends rfl _ _) (fun _ _ h => h) (fun claim' _ _ h => ?_) fun e _ _ h => ?_
        · exact ⟨h.2.has, fun c hc => (Except.ok.inj hc) ▸ h.1⟩
        · exact ⟨h, fun c hc => by cases hc⟩
      · cases accounted with
        | ok claim' =>
          exact .of_forall fun _ _ h => .conseq (complete (h.2 claim' rfl)) (fun _ _ h => h.1)
            (fun _ _ _ h => h) fun _ _ _ h => h
        | error e => exact skip
    · exact complete rfl
  next => exact skip

theorem submissionUnknown_tends (hX : claim.claimId = X) (timestamp : ℕ) :
    Tends sha256 i (Has i X) (submissionUnknown sha256 claim timestamp) (fun _ _ => True)
      fun _ => True :=
  .handle (.bind (transitionClaim_tends (by exact hX) _ _) fun _ =>
      .done_ok (any_stable i) fun _ _ _ => trivial)
    fun _ => .done_ok (any_stable i) fun _ _ _ => trivial

/-- What holds after an attempt: as after its answer, or as after an error. -/
def Attempted {α : Type} (Q : α → World Unit (Durable ι) → Prop)
    (E : World Unit (Durable ι) → Prop) : Except String α → World Unit (Durable ι) → Prop
  | .ok a => Q a
  | .error _ => E

theorem holding_tends {α : Type} (hX : claim.claimId = X) {p : Proc α} {next : α → Proc Unit}
    {Q : α → World Unit (Durable ι) → Prop} (hp : Tends sha256 i (Has i X) p Q (Has i X))
    (hnext : ∀ a, Tends sha256 i (Q a) (next a) (fun _ _ => True) fun _ => True) :
    Tends sha256 i (Has i X) (holding sha256 claim timestamp p next) (fun _ _ => True)
      fun _ => True := by
  refine .bind (.attempt (R := Attempted Q (Has i X)) hp) fun r => ?_
  cases r with
  | ok a => exact hnext a
  | error e => exact submissionUnknown_tends hX timestamp

theorem placeDemoOrder_handles (candidate : Candidate) (binding : Binding) :
    Handles (placeDemoOrder sha256 candidate binding) := by
  have checks : Minors (Prog.request (Op.orderChecks candidate) : Proc _) := .request trivial
  refine .bind checks.handles fun allowed => ?_
  split
  · exact .bind (generateOrderLinkId_minor _).handles fun _ => .request (.inr ⟨_, _, rfl⟩)
  · exact .ret _

theorem submitClaim_tends (candidate : Candidate) (hX : claim.claimId = X) (binding : Binding)
    (timestamp : ℕ) :
    Tends sha256 i (Has i X) (submitClaim sha256 candidate claim binding timestamp)
      (fun _ _ => True) fun _ => True := by
  have journal : Minors (Prog.request Op.journal : Proc Unit) := .request trivial
  have hhas := has_stable i X
  refine holding_tends hX (Q := fun submitted w => submitted.2.claimId = X ∧ Has i X w)
    (.bind ((placeDemoOrder_handles _ _).tends hhas) fun _ =>
      .bind (transitionClaim_tends (by exact hX) _ _)
      fun _ => .done_ok ((Contract.Stable.const _).and hhas) fun _ _ h => ⟨h.1, h.2.has⟩)
    fun submitted => .of_forall fun _ _ hsubmitted => ?_
  refine .conseq (holding_tends hsubmitted.1 (transitionClaim_tends (by exact hsubmitted.1) _ _)
    fun resolved => .of_forall fun _ _ hresolved => ?_) (fun _ _ h => h.2) (fun _ _ _ h => h)
    fun _ _ _ h => h
  refine .conseq (holding_tends hresolved.1 (Q := fun _ _ => True)
    (.bind (journal.handles.tends hhas) fun _ => ?_) fun _ => .done_ok (any_stable i)
      fun _ _ _ => trivial) (fun _ _ h => h.2.has) (fun _ _ _ h => h) fun _ _ _ h => h
  split
  · exact .done_ok (any_stable i) fun _ _ _ => trivial
  · exact completeResolvedClaim_tends hresolved.1 _

/-- Nothing is announced of what is thrown. -/
theorem Minors.tends {α : Type} {p : Proc α} (h : Minors p) {P : World Unit (Durable ι) → Prop}
    (hP : (holdings ι).Stable i P) : Tends sha256 i P p (fun _ => P) fun _ => True :=
  (h.handles.tends hP).conseq (fun _ _ h => h) (fun _ _ _ h => h) fun _ _ _ _ => trivial

/-- The claim that was made, if any, is in hand. -/
def Made (i : ι) (claim : Option Claim) (w : World Unit (Durable ι)) : Prop :=
  ∀ c, claim = some c → Has i c.claimId w

omit [DecidableEq ι] in
theorem made_stable (i : ι) (claim : Option Claim) : (holdings ι).Stable i (Made i claim) :=
  fun w w' hr hw' h c hc => has_stable i _ w w' hr hw' (h c hc)

theorem createActiveClaim_tends (candidate : Candidate) (timestamp : ℕ) :
    Tends sha256 i (Idle i) (createActiveClaim candidate timestamp) (Made i) fun _ => True := by
  have token : Minors (Prog.request Op.token : Proc _) := .request trivial
  refine .bind (token.tends (idle_stable i)) fun claimId => .bind claim_tends fun created => ?_
  split
  next hcreated =>
    have hhas := has_stable i claimId
    refine .conseq (.bind (getActive_minor.tends hhas) fun active =>
      .bind ((present_minor active _).tends hhas) fun saved =>
      .bind ((require_tends hhas _ _).conseq (fun _ _ h => h) (fun _ _ _ h => h)
        fun _ _ _ _ => trivial) fun _ =>
      .done_ok (made_stable i _) fun w _ h c hc => ?_) (fun _ _ h => h hcreated)
      (fun _ _ _ h => h) fun _ _ _ h => h
    obtain rfl : saved = c := Option.some.inj hc
    rw [h.1.1]
    exact h.2
  next =>
    exact .conseq (.bind (getActive_minor.tends (any_stable i)) fun _ =>
      .done_ok (made_stable i none) fun _ _ _ c hc => by cases hc) (fun _ _ _ => trivial)
      (fun _ _ _ h => h) fun _ _ _ h => h

theorem createReservedClaim_tends (candidate : Candidate) (candidateKey : String)
    (timestamp : ℕ) :
    Tends sha256 i (Idle i) (createReservedClaim sha256 candidate candidateKey timestamp)
      (fun claim => Made i (claim.map Prod.fst)) fun _ => True := by
  have hidle := idle_stable i
  have htrue := any_stable i
  refine .bind ((getLedger_minor _).tends hidle) fun record =>
    .bind ((present_minor record _).tends hidle) fun saved =>
    .bind (Minors.tends (.require _ _) hidle) fun _ => ?_
  refine .bind (.handle (createActiveClaim_tends candidate timestamp) fun e =>
    .bind ((writeRecord_minor _ _).tends htrue) fun _ => .done_error htrue fun _ _ h => h)
    fun claim => ?_
  -- No claim: somebody else was first, and the record written says so.
  cases claim with
  | none =>
    exact .conseq (.bind ((writeRecord_minor _ _).tends htrue) fun _ =>
      .done_ok (made_stable i none) fun _ _ _ c hc => by cases hc) (fun _ _ _ => trivial)
      (fun _ _ _ h => h) fun _ _ _ h => h
  | some claim =>
    have hhas := has_stable i claim.claimId
    refine .conseq (.bind ((persistClaim_tends rfl).conseq (fun _ _ h => h) (fun _ _ _ h => h)
      fun _ _ _ _ => trivial) fun saved' => .of_forall fun _ _ hsaved => ?_)
      (fun _ _ h => h claim rfl) (fun _ _ _ h => h) fun _ _ _ h => h
    refine .conseq (.bind ((writeRecord_minor _ _).tends hhas) fun _ =>
      .bind ((claimBinding_minor saved').tends hhas) fun _ =>
      .done_ok (made_stable i (some saved')) fun _ _ h c hc => ?_) (fun _ _ h => h.2.has)
      (fun _ _ _ h => h) fun _ _ _ h => h
    obtain rfl : saved' = c := Option.some.inj hc
    rw [hsaved.1]
    exact h

theorem createClaim_tends (candidate : Candidate) (timestamp : ℕ) :
    Tends sha256 i (Idle i) (createClaim sha256 candidate timestamp)
      (fun claim => Made i (claim.map Prod.fst)) fun _ => True := by
  have hidle := idle_stable i
  have reserve : ∀ key record, Minors (store (.putLedgerIfAbsent key record)) := fun _ _ =>
    .request trivial
  refine .bind ((candidateKeyOf_minor _).tends hidle) fun _ =>
    .bind ((reserve _ _).tends hidle) fun created => ?_
  split
  · exact createReservedClaim_tends _ _ _
  · exact .bind ((reportConflict_minor _).tends hidle) fun _ =>
      .done_ok (made_stable i none) fun _ _ _ c hc => by cases hc

theorem runOnce_tends : Tends sha256 i (Idle i) (runOnce sha256) (fun _ _ => True)
    fun _ => True := by
  have hidle := idle_stable i
  have time : Minors (Prog.request Op.time : Proc _) := .request trivial
  have status : Minors (store .status) := .request trivial
  have next : Minors (Prog.request Op.candidate : Proc _) := .request trivial
  have skip : ∀ {P : World Unit (Durable ι) → Prop}, Tends sha256 i P (Prog.ret ())
      (fun _ _ => True) fun _ => True := .done_ok (any_stable i) fun _ _ _ => trivial
  refine .bind (time.tends hidle) fun timestamp => .bind (status.tends hidle) fun available => ?_
  split
  · refine .bind load_tends fun active => ?_
    -- An active claim is recovered or blocks the turn; without one the worker is idle and may
    -- make its own.
    cases active with
    | some claim =>
      exact .conseq (recoverOrBlockExistingClaim_tends claim timestamp) (fun _ _ h => h.2 claim rfl)
        (fun _ _ _ h => h) fun _ _ _ h => h
    | none =>
      refine .conseq (.bind (next.tends hidle) fun candidate => ?_) (fun _ _ h => h.1 rfl)
        (fun _ _ _ h => h) fun _ _ _ h => h
      cases candidate with
      | none => exact skip
      | some candidate =>
        refine .bind (createClaim_tends candidate timestamp) fun created => ?_
        cases created with
        | none => exact skip
        | some created =>
          exact .conseq (submitClaim_tends candidate rfl created.2 timestamp)
            (fun _ _ h => h created.1 rfl) (fun _ _ _ h => h) fun _ _ _ h => h
  · exact skip

theorem processBody_tends : Tends sha256 i (fun _ => True) (processBody sha256) (fun _ _ => True)
    fun _ => True := by
  have hidle := idle_stable i
  have restarted : Minors (Prog.request Op.restarted : Proc _) := .request trivial
  have time : Minors (Prog.request Op.time : Proc _) := .request trivial
  have run : Tends sha256 i (Idle i) (do
      let _ ← Prog.attempt (runOnce sha256)
      Prog.request Op.release) (fun _ _ => True) fun _ => True :=
    .bind (.attempt (R := fun _ _ => True) runOnce_tends) fun _ =>
      release_tends.conseq (fun _ _ h => h) (fun _ _ _ _ => trivial) fun _ _ _ h => h
  refine .bind release_tends fun _ => .bind (restarted.tends hidle) fun fresh => ?_
  split
  · exact .bind (time.tends hidle) fun _ =>
      .bind ((bootstrapExistingActiveClaim_minor sha256 _).tends hidle) fun _ => run
  · exact run

end

/-- While no process takes a claim in hand when another one has one, the processes keep to the
    claims in hand. -/
theorem handoff_holding : Verified (handoff sha256 ι) Alone (holdings ι) (fun _ _ => True)
    fun _ _ => True where
  body _ := processBody_tends
  loop _ _ _ _ _ := trivial
  cut _ _ _ _ _ := trivial
  env w w' hw he _ := by
    obtain rfl : w' = w := he
    exact ⟨hw, fun j => (holdings ι).rely_refl j _, trivial⟩

end

/-- No process has started, and the active claim is as it was last written. -/
structure Durable.Idle (d : Durable ι) : Prop where
  kept : d.store.Kept
  written : ∀ c, d.store.active = some c → d.store.written c.claimId = some c.state
  hands : ∀ i, d.hands i = none

theorem Durable.Idle.holding {d : Durable ι} (h : d.Idle) : Holding d :=
  ⟨h.kept, h.written, fun i _ hi => absurd (h.hands i) hi, fun i X c hi => by simp [h.hands i] at hi⟩

/-- While no process takes a claim in hand when another one has one, every claim whose outcome is
    not known is under the active key. -/
theorem active_claim_kept [DecidableEq ι] (sha256 : String → String) {d : Durable ι} (hd : d.Idle)
    {c : Config ι Unit (Durable ι) String Op.Val}
    (h : Run (handoff sha256 ι) Alone ((handoff sha256 ι).start ⟨(), d⟩) c) :
    c.world.remote.store.Kept :=
  (handoff_holding.run (w := ⟨(), d⟩) hd.holding (fun _ => trivial) h).kept

theorem vacant_idle : vacant.Idle where
  kept X state hX := by simp [vacant] at hX
  written c hc := by simp [vacant] at hc
  hands _ := rfl

/-- A process that claims a candidate and completes it, but for the last call: the key is not
    cleared yet. Meanwhile another process, if `meanwhile`, finds the settled claim and completes
    it too, and claims the next candidate. -/
def slowDelete (meanwhile : ℕ) : List (Move (Fin 2) Unit (Durable (Fin 2)) String Op.Val) :=
  let first := Move.run 0 (oblige 0 ⟨"ETHUSDT:1", "ETHUSDT", "Buy"⟩ "first")
  let second := Move.run 1 (oblige 1 ⟨"BTCUSDT:1", "BTCUSDT", "Buy"⟩ "second")
  List.replicate 42 first ++ List.replicate meanwhile second ++ [first]

theorem slowDelete_fair (meanwhile : ℕ) : ∀ m ∈ slowDelete meanwhile,
    m.Fair (handoff (fun text => text) (Fin 2)) := by
  intro m hm
  simp only [slowDelete, List.mem_append, List.mem_replicate, List.mem_singleton] at hm
  rcases hm with (⟨-, rfl⟩ | ⟨-, rfl⟩) | rfl
  · exact oblige_fair _ _ _ _
  · exact oblige_fair _ _ _ _
  · exact oblige_fair _ _ _ _

theorem slowDelete_unkept : (playAll (handoff (fun text => text) (Fin 2))
    ((handoff (fun text => text) (Fin 2)).start ⟨(), vacant⟩) (slowDelete 27)).map
    (fun c => (c.world.remote.store.written "second", c.world.remote.store.active)) =
      some (some .claimed, none) := by
  decide +kernel

/-- The slower of two processes clears the key under which the other one has put its next claim. -/
theorem active_claim_lost : ¬∀ c : Config (Fin 2) Unit (Durable (Fin 2)) String Op.Val,
    Run (handoff (fun text => text) (Fin 2)) (fun _ _ _ => True)
      ((handoff (fun text => text) (Fin 2)).start ⟨(), vacant⟩) c → c.world.remote.store.Kept := by
  intro h
  obtain ⟨c, hc, hend⟩ := Option.map_eq_some_iff.1 slowDelete_unkept
  obtain ⟨hwritten, hactive⟩ := Prod.mk.inj hend
  obtain ⟨claim, hclaim, -⟩ := h c (Run.of_playAll (slowDelete_fair 27) hc) "second" .claimed
    hwritten (by decide)
  exact Option.some_ne_none claim (hclaim.symm.trans hactive)

/-- A step that meets the condition. -/
def meetsAlone (w : World Unit (Durable (Fin 2))) :
    Label (Fin 2) String Op.Val → World Unit (Durable (Fin 2)) → Bool
  | .call i (.store (.putActiveIfAbsent _)) _, w' => decide (w.remote.store.active = none →
      w'.remote.store.active ≠ none → ∀ j, j ≠ i → w.remote.hands j = none)
  | .call i (.store (.getActive true)) (.ok (some c)), _ => decide (c.state.Settled →
      ∀ j, j ≠ i → w.remote.hands j = none)
  | _, _ => true

theorem alone_of_meetsAlone (w : World Unit (Durable (Fin 2))) (l : Label (Fin 2) String Op.Val)
    (w' : World Unit (Durable (Fin 2))) (h : meetsAlone w l w' = true) : Alone w l w' := by
  constructor
  · rintro i c a rfl
    exact of_decide_eq_true h
  · rintro i c rfl
    exact of_decide_eq_true h

/-- A process claims a candidate and sends its order, while another one finds the claim and leaves
    it; then it completes the claim, and the other one claims the next candidate. -/
def turns : List (Move (Fin 2) Unit (Durable (Fin 2)) String Op.Val) :=
  let first := Move.run 0 (oblige 0 ⟨"ETHUSDT:1", "ETHUSDT", "Buy"⟩ "first")
  let second := Move.run 1 (oblige 1 ⟨"BTCUSDT:1", "BTCUSDT", "Buy"⟩ "second")
  List.replicate 20 first ++ List.replicate 7 second ++ List.replicate 23 first ++
    List.replicate 20 second

theorem turns_fair : ∀ m ∈ turns, m.Fair (handoff (fun text => text) (Fin 2)) := by
  intro m hm
  simp only [turns, List.mem_append, List.mem_replicate] at hm
  rcases hm with ((⟨-, rfl⟩ | ⟨-, rfl⟩) | ⟨-, rfl⟩) | ⟨-, rfl⟩ <;> exact oblige_fair _ _ _ _

/-- Both processes claim, one after the other, and the claim whose order was just sent is under the
    key. -/
theorem active_claim_kept_turns : ∃ c : Config (Fin 2) Unit (Durable (Fin 2)) String Op.Val,
    Run (handoff (fun text => text) (Fin 2)) Alone
      ((handoff (fun text => text) (Fin 2)).start ⟨(), vacant⟩) c ∧
    c.world.remote.orders.map PlacedOrder.candidate =
      [⟨"BTCUSDT:1", "BTCUSDT", "Buy"⟩, ⟨"ETHUSDT:1", "ETHUSDT", "Buy"⟩] ∧
    c.world.remote.store.written "second" = some .claimed ∧ c.world.remote.store.Kept := by
  have hplay : ((playMeeting (handoff (fun text => text) (Fin 2)) meetsAlone
      ((handoff (fun text => text) (Fin 2)).start ⟨(), vacant⟩) turns).map fun c =>
        (c.world.remote.orders.map PlacedOrder.candidate, c.world.remote.store.written "second")) =
      some ([⟨"BTCUSDT:1", "BTCUSDT", "Buy"⟩, ⟨"ETHUSDT:1", "ETHUSDT", "Buy"⟩],
        some .claimed) := by
    decide +kernel
  obtain ⟨c, hc, hend⟩ := Option.map_eq_some_iff.1 hplay
  obtain ⟨horders, hwritten⟩ := Prod.mk.inj hend
  have hrun := (Run.of_playMeeting turns_fair hc).mono alone_of_meetsAlone
  exact ⟨c, hrun, horders, hwritten, active_claim_kept (fun text => text) vacant_idle hrun⟩

end IntradayBot.Handoff
