import ShardFleet.Proofs.Migration.Visits
import ShardFleet.Proofs.Spending

/-!
Statements over connections, one after another.

Work on a shard over connections meets its share, and a network that grants a connection or refuses
it (`Access`). As long as such work waits, and however often it opens connections and gives them
back, the shard has noted some statements that it was permitted to send, and nothing else has
changed (`Access.Within`). So it can be followed statement by statement: what a shard answers
depends on the share that was found (`Access.tends_execute`, `Access.tends_query`), and a network
that granted a connection once grants the next one too (`Access.tends_use`). With ticks to spend a
statement is answered in time or late (`Connection.spends_send`).
-/

namespace ShardFleet

variable {α : Type} {id : ShardId} {world : Deployment}

namespace Share

variable {found left : Share} {statements others : List Statement} {statement : Statement}

/-- The shard is there and answers the statement in this way. -/
def Answers (share : Share) (statement : Statement) (verdict : Except Error Unit) : Prop :=
  ∃ shard, share.simulated = some shard ∧ shard.verdict statement = verdict

/-- The statement succeeds on the shard. -/
def Accepts (share : Share) (statement : Statement) : Prop := share.Answers statement (.ok ())

theorem Answers.unique {verdict other : Except Error Unit} (one : found.Answers statement verdict)
    (two : found.Answers statement other) : verdict = other := by
  obtain ⟨shard, there, rfl⟩ := one
  obtain ⟨same, here, rfl⟩ := two
  rw [Option.some.inj (there.symm.trans here)]

/-- No shard comes to be there. -/
theorem Noted.was_present {answering : SimulatedShard} (noted : found.Noted statements left)
    (there : left.simulated = some answering) : ∃ shard, found.simulated = some shard := by
  have simulated := noted.simulated
  rw [there] at simulated
  generalize found.simulated = before at simulated
  cases simulated with
  | some _ => exact ⟨_, rfl⟩

/-- A shard that is there has noted the statements at the end of its log. -/
theorem Noted.log_append {shard : SimulatedShard} (present : found.simulated = some shard)
    (noted : found.Noted statements left) : left.log = found.log ++ statements := by
  obtain ⟨answering, there, noted⟩ := noted.present present
  rw [log, log, present, there]
  exact noted.log

/-- So there is one way to tell what it has noted. -/
theorem Noted.unique {shard : SimulatedShard} (present : found.simulated = some shard)
    (one : found.Noted statements left) (two : found.Noted others left) : statements = others :=
  List.append_cancel_left ((one.log_append present).symm.trans (two.log_append present))

end Share

/-- What work over connections meets of a shard: what a deployment holds of it, and why it is
refused a connection, if it is. -/
structure Access where
  share : Share
  refusal : Option Error

/-- What a deployment lets work over connections meet of a shard. -/
def Deployment.access (id : ShardId) (world : Deployment) : Access :=
  ⟨world.share id, world.network.refusal? id⟩

theorem Network.refusal?_update (network : Network) (id other : ShardId)
    (f : SimulatedShard → SimulatedShard) :
    (network.update id f).refusal? other = network.refusal? other := by
  have same : (network.update id f).shards.contains other = network.shards.contains other := by
    simp [Network.update, OrderedMap.contains]
  simp only [Network.refusal?, same]
  rfl

theorem Deployment.access_onShard (world : Deployment) (id other : ShardId)
    (f : SimulatedShard → SimulatedShard) :
    (world.onShard id f).access other =
      ⟨if other = id then (world.share other).onShard f else world.share other,
        world.network.refusal? other⟩ := by
  rw [access, share_onShard, onShard, onNetwork, Network.refusal?_update]

namespace Access

variable {found left : Access} {done : List Statement} {statement : Statement}

/-- The shard has noted these statements since, and is refused connections as before. -/
structure Noted (found : Access) (statements : List Statement) (left : Access) : Prop where
  share : found.share.Noted statements left.share
  refusal : left.refusal = found.refusal

/-- The shard has noted some statements that it was permitted to be sent. -/
def Within (permitted : List Statement → Prop) (found left : Access) : Prop :=
  ∃ done, permitted done ∧ found.Noted done left

theorem Noted.refl (access : Access) : access.Noted [] access := ⟨.refl access.share, rfl⟩

theorem touches_onShard (world : Deployment) (id : ShardId)
    (f : SimulatedShard → SimulatedShard) :
    TouchesOnly Deployment.access id world (world.onShard id f) := by
  intro other different
  rw [Deployment.access_onShard, if_neg different]
  rfl

theorem Noted.onShard {others : List Statement} {f : SimulatedShard → SimulatedShard}
    (noted : found.Noted done (world.access id))
    (changes : ∀ {before after}, SimulatedShard.Noted before done after →
      before.Noted others (f after)) :
    found.Noted others ((world.onShard id f).access id) := by
  rw [Deployment.access_onShard, if_pos rfl]
  exact ⟨noted.share.onShard changes, noted.refusal⟩

theorem Noted.connect (noted : found.Noted done (world.access id)) :
    found.Noted done ((world.onShard id .connect).access id) :=
  noted.onShard .connect

theorem Noted.release (noted : found.Noted done (world.access id)) :
    found.Noted done ((Connection.release id world).access id) :=
  noted.onShard .disconnect

theorem Noted.receive (noted : found.Noted done (world.access id)) (statement : Statement) :
    found.Noted (done ++ [statement]) ((world.onShard id (·.receive statement)).access id) :=
  noted.onShard (·.receive statement)

/-- A shard that was there answers as it would have before. -/
theorem Noted.answering {shard : SimulatedShard} (present : found.share.simulated = some shard)
    (noted : found.Noted done (world.access id)) : shard.Noted done (world.shard id) := by
  obtain ⟨answering, there, noted⟩ := noted.share.present present
  have now : world.network.shard? id = some answering := there
  rw [Deployment.shard, now]
  exact noted

variable {permitted : List Statement → Prop} {shard : SimulatedShard}

/-- Over a connection of its own. Where it is refused, nothing is done. -/
theorem tends_use {ends : Except Error α → Deployment → Prop} {work : Work α}
    (noted : found.Noted done (world.access id))
    (refused : ∀ error, found.refusal = some error → ends (.error error) world)
    (granted : ∀ opened shard, found.refusal = none → found.share.simulated = some shard →
      found.Noted done (opened.access id) →
      Activity.Tends Deployment.access id (fun later => found.Within permitted (later.access id))
        (fun result later => ends result (Connection.release id later)) work opened) :
    Activity.Tends Deployment.access id (fun later => found.Within permitted (later.access id))
      ends (Connection.use id work) world := by
  refine Job.tends_bind.mpr ?_
  unfold Connection.acquire
  cases refusal : world.network.refusal? id with
  | some error =>
      refine (Job.tends_transact_error (by rw [refusal])).mpr (refused error ?_)
      exact noted.refusal.symm.trans refusal
  | none =>
      refine (Job.tends_transact_ok (world.onShard id .connect) () (by rw [refusal])).mpr ?_
      refine ⟨touches_onShard world id _, ?_⟩
      refine Activity.Tends.guarded (fun later => touches_onShard later id _) ?_ ?_
      · rintro later ⟨done, allowed, noted⟩
        exact ⟨done, allowed, noted.release⟩
      · obtain ⟨answering, there⟩ := Connection.present_of_granted refusal
        obtain ⟨shard, present⟩ := noted.share.was_present there
        exact granted _ shard (noted.refusal.symm.trans refusal) present noted.connect

theorem tends_send {ends : Except Error Unit → Deployment → Prop}
    (allowed : permitted done) (present : found.share.simulated = some shard)
    (noted : found.Noted done (world.access id))
    (answered : ∀ later : Deployment, found.Noted (done ++ [statement]) (later.access id) →
      ends (shard.verdict statement) later) :
    Activity.Tends Deployment.access id (fun later => found.Within permitted (later.access id))
      ends (Connection.send id statement) world := by
  unfold Connection.send Connection.await
  simp only [Job.tends_bind, Job.tends_look, ExceptT.bindCont]
  refine Job.tends_sleep.mpr ⟨⟨done, allowed, noted⟩, fun later same _ => ?_⟩
  refine Job.tends_bind.mpr (Job.tends_change.mpr ⟨touches_onShard later id _, ?_⟩)
  have sent := (same ▸ noted : found.Noted done (later.access id)).receive statement
  refine Job.tends_look.mpr ?_
  rw [(sent.answering present).verdict statement]
  exact answered _ sent

/-- A statement without rows is sent and noted, and fails or succeeds. -/
theorem tends_execute {ends : Except Error Nat → Deployment → Prop}
    (allowed : permitted done) (present : found.share.simulated = some shard)
    (noted : found.Noted done (world.access id))
    (failed : ∀ (later : Deployment) message,
      found.Noted (done ++ [statement]) (later.access id) →
      found.share.Answers statement (.error (.statement message)) →
      ends (.error (.statement message)) later)
    (succeeded : ∀ (later : Deployment) affected,
      found.Noted (done ++ [statement]) (later.access id) → found.share.Accepts statement →
      ends (.ok affected) later) :
    Activity.Tends Deployment.access id (fun later => found.Within permitted (later.access id))
      ends (Connection.execute id statement) world := by
  refine Job.tends_bind.mpr (tends_send allowed present noted fun later noted => ?_)
  cases verdict : shard.verdict statement with
  | error error =>
      obtain ⟨message, rfl⟩ := SimulatedShard.verdict_error verdict
      exact failed later message noted ⟨shard, present, verdict⟩
  | ok value =>
      refine Job.tends_look.mpr ?_
      exact succeeded later _ noted ⟨shard, present, verdict⟩

/-- A query is sent and noted, and fails or is answered. -/
theorem tends_query {ends : Except Error (List Row) → Deployment → Prop}
    (allowed : permitted done) (present : found.share.simulated = some shard)
    (noted : found.Noted done (world.access id))
    (failed : ∀ (later : Deployment) message,
      found.Noted (done ++ [statement]) (later.access id) →
      found.share.Answers statement (.error (.statement message)) →
      ends (.error (.statement message)) later)
    (succeeded : ∀ later : Deployment,
      found.Noted (done ++ [statement]) (later.access id) → found.share.Accepts statement →
      ends (.ok (shard.response statement)) later) :
    Activity.Tends Deployment.access id (fun later => found.Within permitted (later.access id))
      ends (Connection.query id statement) world := by
  refine Job.tends_bind.mpr (tends_send allowed present noted fun later noted => ?_)
  cases verdict : shard.verdict statement with
  | error error =>
      obtain ⟨message, rfl⟩ := SimulatedShard.verdict_error verdict
      exact failed later message noted ⟨shard, present, verdict⟩
  | ok value =>
      refine Job.tends_look.mpr ?_
      have answers : (later.shard id).response statement = shard.response statement := by
        simp only [SimulatedShard.response, (noted.answering present).responses]
      rw [answers]
      exact succeeded later noted ⟨shard, present, verdict⟩

end Access

/-! ### With ticks to spend -/

namespace Connection

variable {ι π : Type} {part : ι → Deployment → π} {owner : ι} {late : Prop} {left : Nat}
  {statement : Statement}

/-- A statement is answered after the latency of the shard, if this is not too long. -/
theorem spends_send {ends : Except Error Unit → Nat → Deployment → Prop}
    (own : ∀ later : Deployment,
      TouchesOnly part owner later (later.onShard id (·.receive statement)))
    (slow : left < (world.shard id).latency.sleepTicks → late)
    (answered : (world.shard id).latency.sleepTicks ≤ left → ∀ later : Deployment,
      part owner later = part owner world →
      ends (((later.onShard id (·.receive statement)).shard id).verdict statement)
        (left - (world.shard id).latency.sleepTicks)
        (later.onShard id (·.receive statement))) :
    Activity.Spends part owner late ends (send id statement) left world := by
  unfold send await
  simp only [Job.spends_bind, Job.spends_look, ExceptT.bindCont]
  refine Job.spends_sleep.mpr fun later same => ?_
  split
  · next enough =>
      refine Job.spends_bind.mpr (Job.spends_change.mpr ⟨own later, Job.spends_look.mpr ?_⟩)
      exact answered enough later same
  · next short => exact slow (Nat.lt_of_not_le short)

/-- Over a connection of its own. Where it is refused, nothing is done. -/
theorem spends_use {ends : Except Error α → Nat → Deployment → Prop} {work : Work α}
    (opens : TouchesOnly part owner world (world.onShard id .connect))
    (closes : ∀ later, TouchesOnly part owner later (release id later))
    (refused : ∀ error, world.network.refusal? id = some error → ends (.error error) left world)
    (granted : world.network.refusal? id = none →
      Activity.Spends part owner late
        (fun result left later => ends result left (release id later)) work left
        (world.onShard id .connect)) :
    Activity.Spends part owner late ends (use id work) left world := by
  refine Job.spends_bind.mpr ?_
  unfold acquire
  cases refusal : world.network.refusal? id with
  | some error =>
      exact (Job.spends_transact_error (by rw [refusal])).mpr (refused error refusal)
  | none =>
      refine (Job.spends_transact_ok (world.onShard id .connect) () (by rw [refusal])).mpr ?_
      exact ⟨opens, Activity.Spends.guarded closes (granted refusal)⟩

end Connection

end ShardFleet
