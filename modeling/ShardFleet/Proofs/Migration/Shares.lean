import ShardFleet.Deployment.Stores
import ShardFleet.Proofs.OrderedMap

/-!
What a deployment holds of each shard.

The share of a shard is its history in the ledger in memory, what the network simulates of it, and
the time that its clock shows. Each change of a deployment that a migration makes changes one
share (`Deployment.share_onShard`, `Deployment.share_append`), and opening a ledger changes none.

Over connections that come and go a shard notes the statements sent to it, and stays as it is
otherwise (`Share.Noted`). Rolling back stamps the latest active record of a migration, whatever
stands around it (`Ledger.rollBack_of_active`).
-/

namespace ShardFleet

/-! ### Simulated shards -/

/-- The shard has noted these statements since, and answers as before. How many connections were
opened meanwhile is left open. -/
structure SimulatedShard.Noted (before : SimulatedShard) (statements : List Statement)
    (after : SimulatedShard) : Prop where
  log : after.log = before.log ++ statements
  responses : after.responses = before.responses
  failures : after.failures = before.failures
  affected : after.affected = before.affected
  latency : after.latency = before.latency

namespace SimulatedShard

variable {before after : SimulatedShard} {statements : List Statement}

theorem Noted.refl (shard : SimulatedShard) : shard.Noted [] shard :=
  ⟨(List.append_nil _).symm, rfl, rfl, rfl, rfl⟩

theorem Noted.connect (noted : before.Noted statements after) :
    before.Noted statements after.connect :=
  ⟨noted.log, noted.responses, noted.failures, noted.affected, noted.latency⟩

theorem Noted.disconnect (noted : before.Noted statements after) :
    before.Noted statements after.disconnect :=
  ⟨noted.log, noted.responses, noted.failures, noted.affected, noted.latency⟩

theorem Noted.receive (noted : before.Noted statements after) (statement : Statement) :
    before.Noted (statements ++ [statement]) (after.receive statement) := by
  refine ⟨?_, noted.responses, noted.failures, noted.affected, noted.latency⟩
  rw [SimulatedShard.receive, noted.log, List.append_assoc]

theorem Noted.verdict (noted : before.Noted statements after) (statement : Statement) :
    after.verdict statement = before.verdict statement := by
  rw [SimulatedShard.verdict, noted.failures]
  rfl

/-- A statement that fails says so as the shard was told to. -/
theorem verdict_error {shard : SimulatedShard} {statement : Statement} {error : Error}
    (fails : shard.verdict statement = .error error) : ∃ message, error = .statement message := by
  unfold SimulatedShard.verdict at fails
  split at fails
  · next message _ => exact ⟨message, (Except.error.inj fails).symm⟩
  · cases fails

end SimulatedShard

/-! ### Shares -/

/-- What a deployment holds of one shard, with the time that the clock of the shard shows. -/
structure Share where
  history : List MigrationRecord
  /-- Nothing, if the network has no such shard. -/
  simulated : Option SimulatedShard
  wallClock : UInt64

namespace Share

variable {found left : Share} {statements : List Statement}

/-- The shard has noted these statements since; one that the network does not have still is not
there. -/
structure Noted (found : Share) (statements : List Statement) (left : Share) : Prop where
  simulated : Option.Rel (·.Noted statements ·) found.simulated left.simulated
  wallClock : left.wallClock = found.wallClock

/-- Connections to the shard may have come and gone, but nothing was sent to it, and its history
is as it was. -/
structure Quiet (found left : Share) : Prop where
  noted : found.Noted [] left
  history : left.history = found.history

/-- This statement and no other was sent to the shard since, once, and with this verdict. -/
structure Sent (found : Share) (statement : Statement) (verdict : Except Error Unit)
    (left : Share) : Prop where
  noted : found.Noted [statement] left
  verdict : ∃ shard, found.simulated = some shard ∧ shard.verdict statement = verdict

/-- The share after a change of the shard in the network. -/
def onShard (f : SimulatedShard → SimulatedShard) (share : Share) : Share :=
  { share with simulated := share.simulated.map f }

/-- The statements that the shard has noted. -/
def log (share : Share) : List Statement := (share.simulated.getD {}).log

theorem Noted.refl (share : Share) : share.Noted [] share := by
  refine ⟨?_, rfl⟩
  cases share.simulated with
  | none => exact .none
  | some shard => exact .some (.refl shard)

theorem Noted.onShard {f : SimulatedShard → SimulatedShard} {others : List Statement}
    (noted : found.Noted statements left)
    (changes : ∀ {before after}, SimulatedShard.Noted before statements after →
      before.Noted others (f after)) :
    found.Noted others (left.onShard f) := by
  obtain ⟨_, _, _⟩ := found
  obtain ⟨_, _, _⟩ := left
  obtain ⟨simulated, wallClock⟩ := noted
  refine ⟨?_, wallClock⟩
  cases simulated with
  | none => exact .none
  | some noted => exact .some (changes noted)

/-- A shard that was there still is. -/
theorem Noted.present (noted : found.Noted statements left) {shard : SimulatedShard}
    (present : found.simulated = some shard) :
    ∃ later, left.simulated = some later ∧ shard.Noted statements later := by
  have simulated := noted.simulated
  rw [present] at simulated
  generalize left.simulated = now at simulated
  cases simulated with
  | some noted => exact ⟨_, rfl, noted⟩

theorem Quiet.refl (share : Share) : share.Quiet share := ⟨.refl share, rfl⟩

theorem Quiet.connect (quiet : found.Quiet left) : found.Quiet (left.onShard .connect) :=
  ⟨quiet.noted.onShard .connect, quiet.history⟩

theorem Quiet.disconnect (quiet : found.Quiet left) : found.Quiet (left.onShard .disconnect) :=
  ⟨quiet.noted.onShard .disconnect, quiet.history⟩

theorem Quiet.receive (quiet : found.Quiet left) (statement : Statement) :
    found.Noted [statement] (left.onShard (·.receive statement)) :=
  quiet.noted.onShard (·.receive statement)

/-- Giving a connection back adds nothing to what was sent, also if the history has grown. -/
theorem Sent.disconnect {statement : Statement} {verdict : Except Error Unit}
    (sent : found.Sent statement verdict left) (history : List MigrationRecord) :
    found.Sent statement verdict (Share.onShard .disconnect { left with history }) :=
  ⟨⟨(sent.noted.onShard .disconnect).simulated, sent.noted.wallClock⟩, sent.verdict⟩

theorem Noted.log_eq (quiet : found.Noted [] left) : left.log = found.log := by
  cases there : found.simulated with
  | none =>
      have simulated := quiet.simulated
      rw [there] at simulated
      generalize now : left.simulated = answering at simulated
      cases simulated
      rw [Share.log, Share.log, there, now]
  | some shard =>
      obtain ⟨answering, now, noted⟩ := quiet.present there
      rw [Share.log, Share.log, there, now]
      exact noted.log.trans (List.append_nil _)

theorem Sent.log_eq {statement : Statement} {verdict : Except Error Unit}
    (sent : found.Sent statement verdict left) : left.log = found.log ++ [statement] := by
  obtain ⟨shard, there, -⟩ := sent.verdict
  obtain ⟨answering, now, noted⟩ := sent.noted.present there
  rw [Share.log, Share.log, there, now]
  exact noted.log

end Share

/-! ### Deployments -/

namespace Deployment

/-- What a deployment holds of a shard. -/
def share (id : ShardId) (world : Deployment) : Share :=
  ⟨world.ledger.history id, world.network.shard? id, world.wallClock⟩

theorem share_onShard (world : Deployment) (id other : ShardId)
    (f : SimulatedShard → SimulatedShard) :
    (world.onShard id f).share other =
      if other = id then (world.share other).onShard f else world.share other := by
  simp only [share, onShard, onNetwork, Network.shard?, Network.update,
    OrderedMap.get?_mapValues, Share.onShard]
  split <;> simp

theorem share_onShard_self (world : Deployment) (id : ShardId)
    (f : SimulatedShard → SimulatedShard) :
    (world.onShard id f).share id = (world.share id).onShard f := by
  rw [share_onShard, if_pos rfl]

theorem share_ensure (world : Deployment) (id other : ShardId) :
    ({ world with ledger := world.ledger.ensure id } : Deployment).share other =
      world.share other := by
  simp only [share, Ledger.history, Ledger.ensure, OrderedMap.getD_alter, id_eq]
  split
  · next same => rw [same]
  · rfl

theorem share_append (world : Deployment) (id other : ShardId) (record : MigrationRecord) :
    ({ world with ledger := world.ledger.append id record } : Deployment).share other =
      if other = id then
        { world.share other with history := (world.share other).history ++ [record] }
      else world.share other := by
  simp only [share, Ledger.history, Ledger.append, OrderedMap.getD_alter]
  split
  · next same => rw [same]
  · rfl

end Deployment

/-! ### Stamps -/

/-- The latest active record of a migration was stamped as rolled back, and nothing else in the
history has changed. -/
def MigrationRecord.Stamped (id : String) (instant : UInt64)
    (before after : List MigrationRecord) : Prop :=
  ∃ earlier record later, before = earlier ++ record :: later ∧
    record.isActiveOf id = true ∧ (∀ other ∈ later, other.isActiveOf id = false) ∧
    after = earlier ++ { record with rolledBackAt := some instant } :: later

namespace Ledger

theorem stampFirst_append {id : String} (instant : UInt64) {newer : List MigrationRecord}
    {record : MigrationRecord} (older : List MigrationRecord)
    (passed : ∀ other ∈ newer, other.isActiveOf id = false) (active : record.isActiveOf id = true) :
    stampFirst id instant (newer ++ record :: older) =
      some (newer ++ { record with rolledBackAt := some instant } :: older) := by
  induction newer with
  | nil => exact if_pos active
  | cons other rest ih =>
      obtain ⟨inactive, passed⟩ := List.forall_mem_cons.mp passed
      rw [List.cons_append, stampFirst, if_neg (by simp [inactive]), ih passed]
      rfl

/-- A migration that is in effect can be rolled back: its latest active record is stamped, and the
histories of other shards stay as they are. -/
theorem rollBack_of_active {ledger : Ledger} {shard : ShardId} {id : String}
    {record : MigrationRecord} (active : ledger.active? shard id = some record)
    (instant : UInt64) :
    ∃ stamped, ledger.rollBack shard id instant = .ok stamped ∧
      (∀ other, other ≠ shard → stamped.history other = ledger.history other) ∧
      MigrationRecord.Stamped id instant (ledger.history shard) (stamped.history shard) := by
  obtain ⟨ofId, newer, older, reversed, passed⟩ := List.find?_eq_some_iff_append.mp active
  have passed : ∀ other ∈ newer, other.isActiveOf id = false := by simpa using passed
  refine ⟨⟨ledger.histories.insert shard
      (newer ++ { record with rolledBackAt := some instant } :: older).reverse⟩, ?_, ?_, ?_⟩
  · rw [rollBack, reversed, stampFirst_append instant older passed ofId]
  · intro other different
    simp [history, different]
  · have before : ledger.history shard = older.reverse ++ record :: newer.reverse := by
      rw [← List.reverse_reverse (ledger.history shard), reversed]
      simp
    refine ⟨older.reverse, record, newer.reverse, before, ofId, ?_, ?_⟩
    · simpa using passed
    · simp [history]

end Ledger

end ShardFleet
