import IntradayBot.Data.Play
import IntradayBot.Entry.Batches
import IntradayBot.Outbox.CommandOutbox
import IntradayBot.Sizing.Batch

/-!
# Stop

A cycle of the orchestrator confirms entries, judges them, sends what is approved to Node and
PostgreSQL, and sizes it. The bot is started and stopped meanwhile. `World.play` is one step of the
whole: a request, a stage of the cycle, or one candidate of the outbox.

No stage reads `BOT_STATE["enabled"]`, and neither a stop nor the kill switch clears what the stages
hold. A stop stops (`stop_means_stop`) where it leaves the outbox nothing to send, and as long as
there is nothing new to send after it (`Heedful`); otherwise something can be sent.
-/

namespace IntradayBot.Outbox

open Entry (Answers BotState RiskState Rules buildRisk riskDue)
open Play
open Sizing (SizingState Wallet)

/-! ## The system -/

/-- What set `BOT_STATE["enabled"]` last. -/
inductive Switch
  | initial
  | start
  /-- The user, or the kill switch. -/
  | stop
  deriving DecidableEq

/-- Where a candidate is sent. -/
inductive Channel
  | node
  | postgres
  deriving DecidableEq

/-- A candidate that is posted to Node, or published as `AVAILABLE`. -/
structure Sent where
  channel : Channel
  key : String
  /-- What set `BOT_STATE["enabled"]` last. -/
  switch : Switch
  deriving DecidableEq

/-- A pass of the outbox, with its copies of the queues: the candidates that are not sent yet. -/
structure Job where
  configured : Bool
  riskQueue : List PyDict
  sizingQueue : List PyDict
  inputFingerprint : String
  node : NodeHandoff
  postgres : PostgresSupport

/-- What the orchestrator does. -/
inductive Phase
  | idle
  | confirming
  | judging
  | publishing
  | delivering (job : Job)
  | mirroring (job : Job)
  | sizing

/-- The bot, and what was sent. -/
structure World where
  switch : Switch
  phase : Phase
  /-- The snapshot of the confirmed entries. -/
  source : PyDict
  risk : RiskState
  sizing : SizingState
  outbox : OutboxState
  /-- `_DELIVERED` -/
  delivered : OrdMap String String
  /-- The payloads of the commands in PostgreSQL. -/
  commands : OrdMap String PyDict
  /-- The last one first. -/
  sent : List Sent

/-- The snapshot of Entry Safety. -/
def riskSnapshot (risk : RiskState) : PyDict :=
  [("status", .str risk.status), ("fiveMinuteCandleTime", risk.fiveMinuteCandleTime),
    ("inputFingerprint", if risk.inputFingerprint = "" then .none else .str risk.inputFingerprint),
    ("updatedAt", .int risk.updatedAt), ("rows", .list (risk.rows.map .dict)),
    ("approvedRiskQueue", .list (risk.approvedRiskQueue.map .dict)),
    ("approvedRiskQueueSize", .int risk.approvedRiskQueue.length),
    ("lastError", risk.lastError.elim .none .str)]

namespace World

variable (rules : Rules) (w : World)

/-- A candidate is sent, if there is one. -/
def send (channel : Channel) (key : Option String) : World :=
  { w with sent := (key.map fun key => ⟨channel, key, w.switch⟩).toList ++ w.sent }

/-- A cycle whose setup is due begins. -/
def cycle : Option World :=
  match w.phase with
  | .idle => some { w with phase := .confirming }
  | _ => none

/-- The confirmed entries are built, or still those of before. -/
def confirm (source : PyDict) : Option World :=
  match w.phase with
  | .confirming => some { w with phase := .judging, source := source }
  | _ => none

/-- `authoritative_entry_risk.ensure_current`, with a copy of `BOT_STATE`. -/
def judge (answers : ℕ → Answers) (state : BotState) (timestamp : ℤ) : Option World :=
  match w.phase with
  | .judging =>
    match riskDue rules.repr w.source w.risk with
    | .ok true => some { w with
        phase := .publishing
        risk := buildRisk rules answers w.source state timestamp w.risk }
    | .ok false => some { w with phase := .publishing }
    | .error _ => some { w with phase := .idle }
  | _ => none

/-- `execution_command_outbox.ensure_current` begins; `configured` tells whether the address of Node
    and its token are set. -/
def publish (configured : Bool) : Option World :=
  match w.phase with
  | .publishing =>
    if due rules.repr w.risk w.sizing w.outbox then
      let job : Job := ⟨configured, w.risk.approvedRiskQueue, w.sizing.approvedSizingQueue,
        fingerprint rules.repr w.risk w.sizing, .zero, .zero⟩
      some { w with phase := .delivering job }
    else some { w with phase := .sizing }
  | _ => none

/-- The next candidate of `_deliver_direct`; if that raises, the pass is over. -/
def deliver (ok : Bool) : Option World :=
  match w.phase with
  | .delivering job =>
    match job.riskQueue with
    | candidate :: queue =>
      match deliverOne rules.repr job.configured ok w.delivered job.node candidate with
      | .ok d => some (send { w with
          phase := .delivering { job with riskQueue := queue, node := d.report }
          delivered := d.delivered } .node d.posted)
      | .error _ => some { w with phase := .sizing, outbox := w.outbox.failed }
    | [] => none
  | _ => none

/-- `_mirror_postgres` begins; without a healthy store, all its candidates wait. -/
def mirror (healthy : Bool) : Option World :=
  match w.phase with
  | .delivering job =>
    if job.riskQueue.isEmpty then
      let job :=
        if healthy then job
        else { job with
          sizingQueue := []
          postgres := { job.postgres with waitingRetry := job.sizingQueue.length } }
      some { w with phase := .mirroring job }
    else none
  | _ => none

/-- The next candidate of `_mirror_postgres`; if that raises, the pass is over. -/
def write (answer : Write) : Option World :=
  match w.phase with
  | .mirroring job =>
    match job.sizingQueue with
    | candidate :: queue =>
      match mirrorOne rules.repr answer w.commands job.postgres candidate with
      | .ok m => some (send { w with
          phase := .mirroring { job with sizingQueue := queue, postgres := m.report }
          commands := m.commands } .postgres m.created)
      | .error _ => some { w with phase := .sizing, outbox := w.outbox.failed }
    | [] => none
  | _ => none

/-- The pass of the outbox ends. -/
def close : Option World :=
  match w.phase with
  | .mirroring job =>
    if job.sizingQueue.isEmpty then
      some { w with
        phase := .sizing
        outbox := published job.inputFingerprint job.node job.postgres }
    else none
  | _ => none

/-- `position_sizing_margin.ensure_current`, which ends the cycle. -/
def size (core : Sizing.Core) (wallet : Except String Wallet) (timestamp : ℤ) : Option World :=
  match w.phase with
  | .sizing =>
    let source := riskSnapshot w.risk
    if Sizing.due core source w.sizing then
      some { w with phase := .idle, sizing := Sizing.build core wallet timestamp source w.sizing }
    else some { w with phase := .idle }
  | _ => none

/-- The classifier or the confirmation raises, which ends the cycle. -/
def abandon : Option World :=
  match w.phase with
  | .confirming => some { w with phase := .idle }
  | _ => none

end World

/-- The events of the system. -/
inductive Label
  | start
  | stop
  | killSwitch
  | cycle
  | confirm (source : PyDict)
  | judge (answers : ℕ → Answers) (state : BotState) (timestamp : ℤ)
  | publish (configured : Bool)
  | deliver (ok : Bool)
  | mirror (healthy : Bool)
  | write (answer : Write)
  | close
  | size (core : Sizing.Core) (wallet : Except String Wallet) (timestamp : ℤ)
  | abandon

/-- One step of the system, where the event can happen. -/
def World.play (rules : Rules) (w : World) : Label → Option World
  | .start => some { w with switch := .start }
  | .stop => some { w with switch := .stop }
  | .killSwitch => some { w with switch := .stop }
  | .cycle => w.cycle
  | .confirm source => w.confirm source
  | .judge answers state timestamp => w.judge rules answers state timestamp
  | .publish configured => w.publish rules configured
  | .deliver ok => w.deliver rules ok
  | .mirror healthy => w.mirror healthy
  | .write answer => w.write rules answer
  | .close => w.close
  | .size core wallet timestamp => w.size core wallet timestamp
  | .abandon => w.abandon

/-! ## Nothing to send -/

/-- Node took all that the queue offers. -/
def DirectSettled (repr : PyValue → String) (delivered : OrdMap String String) :
    List PyDict → Prop :=
  Settled (offerDirect repr) fun offer => delivered.get? offer.1 = some offer.2

instance (repr : PyValue → String) (delivered : OrdMap String String) (queue : List PyDict) :
    Decidable (DirectSettled repr delivered queue) := inferInstanceAs (Decidable (Settled ..))

/-- All that the queue offers is published. -/
def MirrorSettled (repr : PyValue → String) (commands : OrdMap String PyDict) :
    List PyDict → Prop :=
  Settled (offerMirror repr) fun key => (commands.get? key).isSome

instance (repr : PyValue → String) (commands : OrdMap String PyDict) (queue : List PyDict) :
    Decidable (MirrorSettled repr commands queue) := inferInstanceAs (Decidable (Settled ..))

/-- The pass that is under way sends nothing more, before the mirror or in it. -/
def World.Quiet (repr : PyValue → String) (w : World) : Prop :=
  match w.phase with
  | .delivering job => job.configured → DirectSettled repr w.delivered job.riskQueue
  | .mirroring job => MirrorSettled repr w.commands job.sizingQueue
  | _ => True

theorem quiet_delivering {repr : PyValue → String} {w : World} {job : Job}
    (h : w.phase = .delivering job) :
    w.Quiet repr ↔ (job.configured → DirectSettled repr w.delivered job.riskQueue) := by
  rw [World.Quiet, h]

theorem quiet_mirroring {repr : PyValue → String} {w : World} {job : Job}
    (h : w.phase = .mirroring job) :
    w.Quiet repr ↔ MirrorSettled repr w.commands job.sizingQueue := by
  rw [World.Quiet, h]

instance (repr : PyValue → String) (w : World) : Decidable (w.Quiet repr) :=
  match h : w.phase with
  | .delivering _ => decidable_of_iff _ (quiet_delivering h).symm
  | .mirroring _ => decidable_of_iff _ (quiet_mirroring h).symm
  | .idle | .confirming | .judging | .publishing | .sizing =>
    .isTrue (by rw [World.Quiet, h]; trivial)

/-- The candidates that wait for the mirror. -/
def World.sizingQueue (w : World) : List PyDict :=
  match w.phase with
  | .delivering job => job.sizingQueue
  | _ => []

/-- An event is heedful if a stop finds a pass that sends nothing more, and if a part of a pass that
    begins after a stop finds nothing to send. -/
def Heedful (repr : PyValue → String) (w : World) : Label → Prop
  | .stop | .killSwitch => w.Quiet repr
  | .publish configured => w.switch = .stop → due repr w.risk w.sizing w.outbox → configured →
      DirectSettled repr w.delivered w.risk.approvedRiskQueue
  | .mirror healthy => w.switch = .stop → healthy → MirrorSettled repr w.commands w.sizingQueue
  | _ => True

instance (repr : PyValue → String) (w : World) (label : Label) :
    Decidable (Heedful repr w label) :=
  match label with
  | .stop | .killSwitch => inferInstanceAs (Decidable (w.Quiet repr))
  | .publish _ => inferInstanceAs (Decidable (_ → _ → _ → DirectSettled ..))
  | .mirror _ => inferInstanceAs (Decidable (_ → _ → MirrorSettled ..))
  | .start | .cycle | .confirm _ | .judge .. | .deliver _ | .write _ | .close | .size ..
  | .abandon => inferInstanceAs (Decidable True)

/-- No cycle began yet. -/
structure Boots (w : World) : Prop where
  phase : w.phase = .idle
  sent : w.sent = []

/-! ## What heedful steps keep -/

variable {rules : Rules} {w w' : World}

/-- Nothing was sent after a stop, and after one the pass that is under way sends nothing. -/
structure Kept (repr : PyValue → String) (w : World) : Prop where
  sent : ∀ s ∈ w.sent, s.switch ≠ .stop
  quiet : w.switch = .stop → w.Quiet repr

theorem Boots.kept {repr : PyValue → String} (h : Boots w) : Kept repr w where
  sent := by simp [h.sent]
  quiet _ := by
    rw [World.Quiet, h.phase]
    trivial

/-- What is not sent after a stop is sent before. -/
theorem sent_send {channel : Channel} {key : Option String} (h : ∀ s ∈ w.sent, s.switch ≠ .stop)
    (hkey : w.switch = .stop → key = none) : ∀ s ∈ (w.send channel key).sent, s.switch ≠ .stop := by
  intro s hs
  rcases List.mem_append.1 hs with hs | hs
  · obtain ⟨key, hsome, rfl⟩ := Option.map_eq_some_iff.1 (Option.mem_toList.1 hs)
    exact fun hstop => by simp [hkey hstop] at hsome
  · exact h s hs

namespace Kept

theorem publish {configured : Bool} (h : Kept rules.repr w)
    (hheed : Heedful rules.repr w (.publish configured))
    (hp : w.publish rules configured = some w') : Kept rules.repr w' := by
  rw [World.publish] at hp
  split at hp
  · split at hp
    · rename_i hdue
      obtain rfl := Option.some.inj hp
      exact ⟨h.sent, fun hstop hset => hheed hstop hdue hset⟩
    · obtain rfl := Option.some.inj hp
      exact ⟨h.sent, fun _ => trivial⟩
  · cases hp

/-- After a stop, Node knows the candidate, and what is left offers nothing new. -/
theorem deliver {ok : Bool} (h : Kept rules.repr w) (hd : w.deliver rules ok = some w') :
    Kept rules.repr w' := by
  rw [World.deliver] at hd
  split at hd
  · rename_i job hphase
    split at hd
    · rename_i candidate queue hqueue
      split at hd
      · rename_i d hone
        obtain rfl := Option.some.inj hd
        obtain ⟨offered, hoffer, hsame, hposted⟩ := deliverOne_posted hone
        -- Under a stop nothing was left to send, the candidate at the head included.
        have hsettled : w.switch = .stop → job.configured →
            (∀ offer ∈ offered, w.delivered.get? offer.1 = some offer.2) ∧
              DirectSettled rules.repr w.delivered queue := fun hstop hset => by
          have hleft := (quiet_delivering hphase).1 (h.quiet hstop) hset
          rw [hqueue] at hleft
          exact (settled_cons hoffer).1 hleft
        have hnone : w.switch = .stop → d.posted = none := fun hstop =>
          hposted.2 fun hset => (hsettled hstop hset).1
        refine ⟨sent_send h.sent hnone, fun hstop hset => ?_⟩
        exact (hsame (hnone hstop)).symm ▸ (hsettled hstop hset).2
      · obtain rfl := Option.some.inj hd
        exact ⟨h.sent, fun _ => trivial⟩
    · cases hd
  · cases hd

theorem mirror {healthy : Bool} (h : Kept rules.repr w)
    (hheed : Heedful rules.repr w (.mirror healthy)) (hm : w.mirror healthy = some w') :
    Kept rules.repr w' := by
  rw [World.mirror] at hm
  split at hm
  · rename_i job hphase
    split at hm
    · obtain rfl := Option.some.inj hm
      refine ⟨h.sent, fun hstop => ?_⟩
      cases healthy with
      | true =>
        have hsettled := hheed hstop rfl
        rwa [World.sizingQueue, hphase] at hsettled
      | false => trivial
    · cases hm
  · cases hm

/-- After a stop, the command exists, and what is left offers nothing new. -/
theorem write {answer : Write} (h : Kept rules.repr w) (hw : w.write rules answer = some w') :
    Kept rules.repr w' := by
  rw [World.write] at hw
  split at hw
  · rename_i job hphase
    split at hw
    · rename_i candidate queue hqueue
      split at hw
      · rename_i m hone
        obtain rfl := Option.some.inj hw
        obtain ⟨offered, hoffer, hsame, hcreated⟩ := mirrorOne_created hone
        have hsettled : w.switch = .stop → (∀ key ∈ offered, (w.commands.get? key).isSome) ∧
            MirrorSettled rules.repr w.commands queue := fun hstop => by
          have hleft := (quiet_mirroring hphase).1 (h.quiet hstop)
          rw [hqueue] at hleft
          exact (settled_cons hoffer).1 hleft
        have hnone : w.switch = .stop → m.created = none := fun hstop =>
          hcreated (hsettled hstop).1
        refine ⟨sent_send h.sent hnone, fun hstop => ?_⟩
        exact (hsame (hnone hstop)).symm ▸ (hsettled hstop).2
      · obtain rfl := Option.some.inj hw
        exact ⟨h.sent, fun _ => trivial⟩
    · cases hw
  · cases hw

/-- The other stages send nothing, and begin no pass. -/
theorem stage (h : Kept rules.repr w) (hsent : w'.sent = w.sent) (hquiet : w'.Quiet rules.repr) :
    Kept rules.repr w' := ⟨hsent ▸ h.sent, fun _ => hquiet⟩

theorem play {label : Label} (h : Kept rules.repr w) (hheed : Heedful rules.repr w label)
    (hp : w.play rules label = some w') : Kept rules.repr w' := by
  -- Four labels reach the other side: `publish` and `mirror` begin a queue, `deliver` and
  -- `write` work it off. The others only move the stage.
  cases label with
  | start =>
    obtain rfl := Option.some.inj hp
    exact ⟨h.sent, fun hstop => by cases hstop⟩
  | stop =>
    obtain rfl := Option.some.inj hp
    exact ⟨h.sent, fun _ => hheed⟩
  | killSwitch =>
    obtain rfl := Option.some.inj hp
    exact ⟨h.sent, fun _ => hheed⟩
  | cycle =>
    rw [World.play, World.cycle] at hp
    split at hp
    · obtain rfl := Option.some.inj hp
      exact h.stage rfl trivial
    · cases hp
  | confirm source =>
    rw [World.play, World.confirm] at hp
    split at hp
    · obtain rfl := Option.some.inj hp
      exact h.stage rfl trivial
    · cases hp
  | judge answers state timestamp =>
    rw [World.play, World.judge] at hp
    split at hp
    · split at hp
      · obtain rfl := Option.some.inj hp
        exact h.stage rfl trivial
      · obtain rfl := Option.some.inj hp
        exact h.stage rfl trivial
      · obtain rfl := Option.some.inj hp
        exact h.stage rfl trivial
    · cases hp
  | publish configured => exact h.publish hheed hp
  | deliver ok => exact h.deliver hp
  | mirror healthy => exact h.mirror hheed hp
  | write answer => exact h.write hp
  | close =>
    rw [World.play, World.close] at hp
    split at hp
    · split at hp
      · obtain rfl := Option.some.inj hp
        exact h.stage rfl trivial
      · cases hp
    · cases hp
  | size core wallet timestamp =>
    rw [World.play, World.size] at hp
    split at hp
    · dsimp only at hp
      split at hp
      · obtain rfl := Option.some.inj hp
        exact h.stage rfl trivial
      · obtain rfl := Option.some.inj hp
        exact h.stage rfl trivial
    · cases hp
  | abandon =>
    rw [World.play, World.abandon] at hp
    split at hp
    · obtain rfl := Option.some.inj hp
      exact h.stage rfl trivial
    · cases hp

end Kept

/-! ## What other steps lead to -/

/-- The next candidate that is sent is sent after a stop. -/
def SendsStopped (rules : Rules) (w : World) : Prop :=
  ∃ w' s, Runs (World.play rules) w w' ∧ w'.sent = s :: w.sent ∧ s.switch = .stop

/-- A step that sends nothing is a step to it. -/
theorem SendsStopped.head {label : Label} (hp : w.play rules label = some w')
    (hsent : w'.sent = w.sent) (h : SendsStopped rules w') : SendsStopped rules w := by
  obtain ⟨w'', s, hr, hlast, hs⟩ := h
  exact ⟨w'', s, .head ⟨label, trivial, hp⟩ hr, hsent ▸ hlast, hs⟩

/-- A stopped pass posts the first candidate that Node does not know. -/
theorem sends_of_delivering {job : Job} {queue : List PyDict} (hphase : w.phase = .delivering job)
    (hqueue : job.riskQueue = queue) (hset : job.configured) (hstop : w.switch = .stop)
    (h : ¬DirectSettled rules.repr w.delivered queue) : SendsStopped rules w := by
  induction queue generalizing w job with
  | nil => exact absurd trivial h
  | cons candidate queue ih =>
    cases hoffer : offerDirect rules.repr candidate with
    | error e => exact absurd (settled_of_error hoffer) h
    | ok offered =>
      obtain ⟨d, hone⟩ : Succeeds
        (deliverOne rules.repr job.configured true w.delivered job.node candidate) :=
          deliverOne_succeeds hoffer
      have hp : w.play rules (.deliver true) = some (World.send { w with
          phase := .delivering { job with riskQueue := queue, node := d.report }
          delivered := d.delivered } .node d.posted) := by
        rw [World.play, World.deliver, hphase]
        dsimp only
        rw [hqueue]
        dsimp only
        rw [hone]
      cases hposted : d.posted with
      | some key =>
        rw [hposted] at hp
        exact ⟨_, ⟨.node, key, w.switch⟩, .single ⟨_, trivial, hp⟩, rfl, hstop⟩
      | none =>
        -- Node knows what the candidate offers: the pass goes on with the others
        rw [hposted] at hp
        obtain ⟨offered', hoffer', hsame, hknown⟩ := deliverOne_posted hone
        obtain rfl := Except.ok.inj (hoffer.symm.trans hoffer')
        refine .head hp rfl (ih rfl rfl hset hstop fun hrest => h ?_)
        exact (settled_cons hoffer).2 ⟨hknown.1 hposted hset, hsame hposted ▸ hrest⟩

/-- A stopped pass publishes the first candidate without a command. -/
theorem sends_of_mirroring {job : Job} {queue : List PyDict} (hphase : w.phase = .mirroring job)
    (hqueue : job.sizingQueue = queue) (hstop : w.switch = .stop)
    (h : ¬MirrorSettled rules.repr w.commands queue) : SendsStopped rules w := by
  induction queue generalizing w job with
  | nil => exact absurd trivial h
  | cons candidate queue ih =>
    cases hoffer : offerMirror rules.repr candidate with
    | error e => exact absurd (settled_of_error hoffer) h
    | ok offered =>
      obtain ⟨m, hone⟩ : Succeeds
        (mirrorOne rules.repr .ok w.commands job.postgres candidate) := mirrorOne_succeeds hoffer
      have hp : w.play rules (.write .ok) = some (World.send { w with
          phase := .mirroring { job with sizingQueue := queue, postgres := m.report }
          commands := m.commands } .postgres m.created) := by
        rw [World.play, World.write, hphase]
        dsimp only
        rw [hqueue]
        dsimp only
        rw [hone]
      cases hcreated : m.created with
      | some key =>
        rw [hcreated] at hp
        exact ⟨_, ⟨.postgres, key, w.switch⟩, .single ⟨_, trivial, hp⟩, rfl, hstop⟩
      | none =>
        -- the command exists: the pass goes on with the others
        rw [hcreated] at hp
        obtain ⟨offered', hoffer', hsame, -⟩ := mirrorOne_created hone
        obtain rfl := Except.ok.inj (hoffer.symm.trans hoffer')
        refine .head hp rfl (ih rfl rfl hstop fun hrest => h ?_)
        refine (settled_cons hoffer).2 ⟨fun key hkey => ?_, hsame hcreated ▸ hrest⟩
        obtain rfl := Option.mem_def.1 hkey
        by_contra hnew
        rw [mirrorOne_new hoffer (Option.not_isSome_iff_eq_none.1 hnew)] at hone
        cases (Except.ok.inj hone).symm ▸ hcreated

theorem sends_of_not_quiet (hstop : w.switch = .stop) (h : ¬w.Quiet rules.repr) :
    SendsStopped rules w := by
  rw [World.Quiet] at h
  split at h
  · rename_i job hphase
    obtain ⟨hset, h⟩ := Classical.not_imp.1 h
    exact sends_of_delivering hphase rfl hset hstop h
  · rename_i job hphase
    exact sends_of_mirroring hphase rfl hstop h
  · exact absurd trivial h

/-- After a step that is not heedful, a candidate can be sent although the bot is stopped. -/
theorem sends_of_not_heedful {label : Label} (hp : w.play rules label = some w')
    (h : ¬Heedful rules.repr w label) : SendsStopped rules w' := by
  -- The switch is thrown over an unsent queue, or a stopped bot begins one.
  cases label with
  | stop =>
    obtain rfl := Option.some.inj hp
    exact sends_of_not_quiet rfl h
  | killSwitch =>
    obtain rfl := Option.some.inj hp
    exact sends_of_not_quiet rfl h
  | publish configured =>
    obtain ⟨hstop, h⟩ := Classical.not_imp.1 h
    obtain ⟨hdue, h⟩ := Classical.not_imp.1 h
    obtain ⟨hset, h⟩ := Classical.not_imp.1 h
    rw [World.play, World.publish] at hp
    split at hp
    · rw [if_pos hdue] at hp
      obtain rfl := Option.some.inj hp
      exact sends_of_delivering rfl rfl hset hstop h
    · cases hp
  | mirror healthy =>
    obtain ⟨hstop, h⟩ := Classical.not_imp.1 h
    obtain ⟨hhealthy, hleft⟩ := Classical.not_imp.1 h
    obtain rfl : healthy = true := hhealthy
    rw [World.play, World.mirror] at hp
    split at hp
    · rename_i job hphase
      rw [World.sizingQueue, hphase] at hleft
      split at hp
      · obtain rfl := Option.some.inj hp
        exact sends_of_mirroring rfl rfl hstop hleft
      · cases hp
    · cases hp
  | _ => exact absurd trivial h

/-! ## Stop means stop -/

/-- In a run of heedful steps, nothing is sent after a stop until the next start. After any other
    step, something can be. -/
theorem stop_means_stop (h : Boots w) :
    (∀ w', RunsBy (World.play rules) (Heedful rules.repr) w w' →
      ∀ s ∈ w'.sent, s.switch ≠ .stop) ∧
    ∀ w₁ label w₂, Runs (World.play rules) w w₁ → w₁.play rules label = some w₂ →
      ¬Heedful rules.repr w₁ label → SendsStopped rules w₂ := by
  refine ⟨fun w' hr => ?_, fun w₁ label w₂ _ => sends_of_not_heedful⟩
  exact (hr.keeps (I := Kept rules.repr) Kept.play h.kept).sent

/-! ## Three stops -/

/-- The rules of the example: the payloads write no fraction but `1.0`. -/
def exampleRules : Rules := { Entry.exampleRules with repr := fun _ => "1.0" }

/-- A confirmed candidate, with its prices. -/
def confirmedCandidate (key : String) : PyDict :=
  (Entry.exampleCandidate key).update
    [("entryReference", .int 100), ("stopLoss", .int 99), ("takeProfit", .int 102)]

/-- The confirmed entries of a candle. -/
def confirmedAt (time : ℤ) (keys : List String) : PyDict :=
  [("status", .str "ready"), ("fiveMinuteCandleTime", .int time),
    ("confirmedEntryQueue", .list (keys.map fun key => .dict (confirmedCandidate key)))]

/-- A core that sizes them. -/
def exampleCore : Sizing.Core :=
  { Sizing.coreOf (Sizing.lotOf (.str "0.1") (.str "1000")) with formatQty := Json.numberText }

/-- The bot, before the first cycle. -/
def exampleWorld : World where
  switch := .initial
  phase := .idle
  source := []
  risk := .idle
  sizing := Sizing.idle
  outbox := .idle
  delivered := .empty
  commands := .empty
  sent := []

theorem exampleWorld_boots : Boots exampleWorld := ⟨rfl, rfl⟩

/-- A cycle up to Entry Safety, which approves what is confirmed. -/
def approving (time : ℤ) (keys : List String) : List Label :=
  [.cycle, .confirm (confirmedAt time keys),
    .judge (fun _ => Entry.exampleAnswers) Entry.exampleMarket.bot 1000]

/-- The rest of a cycle with a candidate: Node answers, and it is sized if there is a wallet. -/
def sending (ok : Bool) (wallet : Wallet) : List Label :=
  [.publish true, .deliver ok, .mirror true, .close, .size exampleCore (.ok wallet) 1000]

/-- A wallet that cannot be read. -/
def noWallet : Wallet := .error "Wallet equity is unavailable"

/-- What a run sent, the last one first. -/
def sentBy (labels : List Label) : Option (List Sent) :=
  (playAll (World.play exampleRules) exampleWorld labels).map World.sent

theorem sentBy_eq_some {labels : List Label} {sent : List Sent} (h : sentBy labels = some sent) :
    ∃ w, playAll (World.play exampleRules) exampleWorld labels = some w ∧ w.sent = sent :=
  Option.map_eq_some_iff.1 h

/-- A candidate is sent before the stop, and no more after it. -/
theorem stop_means_stop_sent : ∃ w : World, w.sent = [⟨.node, "BTCUSDT-1", .start⟩] ∧
    ∀ s ∈ w.sent, s.switch ≠ .stop := by
  let labels : List Label := .start :: approving 0 ["BTCUSDT-1"] ++ sending true noWallet ++
    [.stop] ++ approving 300000 [] ++ [.publish true, .mirror true, .close]
  have hplay : sentBy labels = some [⟨.node, "BTCUSDT-1", .start⟩] := by decide +kernel
  have hheed : AllBy (World.play exampleRules) (Heedful exampleRules.repr) exampleWorld labels := by
    decide +kernel
  obtain ⟨w, hw, hsent⟩ := sentBy_eq_some hplay
  exact ⟨w, hsent, (stop_means_stop exampleWorld_boots).1 w (.of_playAll hheed hw)⟩

/-- A candidate is approved when the kill switch is pressed, one waits for its retry when the bot is
    stopped, and one is sized and waits for the mirror: each is sent. -/
theorem stop_not_stops :
    (∃ w, Runs (World.play exampleRules) exampleWorld w ∧
      w.sent = [⟨.node, "BTCUSDT-1", .stop⟩]) ∧
    (∃ w, Runs (World.play exampleRules) exampleWorld w ∧
      w.sent = [⟨.node, "BTCUSDT-1", .stop⟩, ⟨.node, "BTCUSDT-1", .start⟩]) ∧
    (∃ w, Runs (World.play exampleRules) exampleWorld w ∧
      w.sent = [⟨.postgres, "BTCUSDT-1", .stop⟩, ⟨.node, "BTCUSDT-1", .start⟩]) ∧
    ¬∀ w w', Boots w → Runs (World.play exampleRules) w w' → ∀ s ∈ w'.sent, s.switch ≠ .stop := by
  -- Stopped between the approval and the post; a retry after a failed post; a row sized late.
  have happroved : sentBy (.start :: approving 0 ["BTCUSDT-1"] ++ [.killSwitch] ++
      [.publish true, .deliver true]) = some [⟨.node, "BTCUSDT-1", .stop⟩] := by decide +kernel
  have hretried : sentBy (.start :: approving 0 ["BTCUSDT-1"] ++ sending false noWallet ++
      [.stop] ++ approving 0 ["BTCUSDT-1"] ++ [.publish true, .deliver true]) =
      some [⟨.node, "BTCUSDT-1", .stop⟩, ⟨.node, "BTCUSDT-1", .start⟩] := by decide +kernel
  have hsized : sentBy (.start :: approving 0 ["BTCUSDT-1"] ++
      sending true (.ok Sizing.thousand) ++ [.stop] ++ approving 300000 [] ++
      [.publish true, .mirror true, .write .ok]) =
      some [⟨.postgres, "BTCUSDT-1", .stop⟩, ⟨.node, "BTCUSDT-1", .start⟩] := by decide +kernel
  obtain ⟨w, hw, hsent⟩ := sentBy_eq_some happroved
  obtain ⟨w₁, hw₁, hsent₁⟩ := sentBy_eq_some hretried
  obtain ⟨w₂, hw₂, hsent₂⟩ := sentBy_eq_some hsized
  refine ⟨⟨w, .of_playAll hw, hsent⟩, ⟨w₁, .of_playAll hw₁, hsent₁⟩,
    ⟨w₂, .of_playAll hw₂, hsent₂⟩, fun hstops => ?_⟩
  refine hstops exampleWorld w exampleWorld_boots (.of_playAll hw) ⟨.node, "BTCUSDT-1", .stop⟩ ?_ rfl
  rw [hsent]
  exact List.mem_cons_self

end IntradayBot.Outbox
