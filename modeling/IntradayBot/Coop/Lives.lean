import IntradayBot.Coop.Rely

/-!
# Lives

A system may be stopped at any point, and start again: what it does between two starts is a
*life*. A new life starts in a world that some relation allows after the one that the last life
left. What a verified system keeps in each of its lives, it keeps in all of them, if it is kept
from one to the next (`Verified.lives`).
-/

namespace IntradayBot.Coop

variable {ι μ ρ ε Op : Type} {Val : Op → Type} [DecidableEq ι]

/-- What one life after the other leads to, the first of them from `w`. -/
inductive Lives (S : System ι μ ρ ε Val) (ok : Condition ι μ ρ ε Val)
    (restarts : World μ ρ → World μ ρ → Prop) (w : World μ ρ) : Config ι μ ρ ε Val → Prop
  | first {c : Config ι μ ρ ε Val} : Run S ok (S.start w) c → Lives S ok restarts w c
  | again {c c' : Config ι μ ρ ε Val} {w' : World μ ρ} : Lives S ok restarts w c →
      restarts c.world w' → Run S ok (S.start w') c' → Lives S ok restarts w c'

variable {S : System ι μ ρ ε Val} {ok : Condition ι μ ρ ε Val} {C : Contract ι μ ρ}
  {restarts : World μ ρ → World μ ρ → Prop} {pre post : ι → World μ ρ → Prop}

/-- The invariant holds in all lives. -/
theorem Verified.lives (hv : Verified S ok C pre post) (hpre : ∀ i w, pre i w)
    (hrestarts : ∀ w w', C.inv w → restarts w w' → C.inv w') {w : World μ ρ} (hw : C.inv w)
    {c : Config ι μ ρ ε Val} (h : Lives S ok restarts w c) : C.inv c.world := by
  induction h with
  | first hr => exact hv.run hw (fun i => hpre i _) hr
  | again _ hw' hr ih => exact hv.run (hrestarts _ _ ih hw') (fun i => hpre i _) hr

end IntradayBot.Coop
