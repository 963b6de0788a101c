import ShardFleet.Migration.Rollout
import ShardFleet.Proofs.Attempts
import ShardFleet.Proofs.Connections
import ShardFleet.Proofs.Scatter.Holding
import ShardFleet.Proofs.Scatter.Scripts
import ShardFleet.Reference.Replication

/-!
Connections that are open, and given back.

The connections to one shard that work under way holds are the ones by which more are open than
before (`Deployment.Lends`). Work over a connection of its own gives it back
(`Connection.returns_use`), so the stores of a deployment do, and what migrations, replication and
comparisons make of them. When such a call is over no connection is open that was not open before,
none was given back that was not open, and none was opened to a shard that cannot be reached
(`connections_given_back`).
-/

namespace ShardFleet

variable {α β : Type} {before world : Deployment} {id shard : ShardId} {count others : Nat}

/-! ### Connections on loan -/

/-- Since then so many more connections to the shard are open. None was given back that was not
open, and none was opened if the shard cannot be reached. -/
structure SimulatedShard.Lends (unreachable : Prop) (count : Nat) (before after : SimulatedShard) :
    Prop where
  connections : after.connections = before.connections + count
  overdrawn : after.overdrawn = before.overdrawn
  opened : unreachable → after.opened = before.opened

namespace SimulatedShard

variable {unreachable : Prop} {old new : SimulatedShard}

theorem Lends.connect (lends : Lends unreachable count old new) (reachable : ¬ unreachable) :
    Lends unreachable (1 + count) old new.connect := by
  refine ⟨?_, lends.overdrawn, fun absurd => (reachable absurd).elim⟩
  have connections := lends.connections
  change new.connections + 1 = _
  omega

/-- A connection that is open can be given back. -/
theorem Lends.disconnect (lends : Lends unreachable (1 + count) old new) :
    Lends unreachable count old new.disconnect := by
  have connections := lends.connections
  have overdrawn := lends.overdrawn
  refine ⟨?_, ?_, lends.opened⟩
  · change new.connections - 1 = _
    omega
  · change new.overdrawn + (1 - new.connections) = _
    omega

end SimulatedShard

/-- So many more connections to a shard are open than before. The same shards are there and can be
reached. -/
structure Deployment.Lends (before : Deployment) (id : ShardId) (count : Nat)
    (world : Deployment) : Prop where
  unreachable : world.network.unreachable = before.network.unreachable
  shard : Option.Rel (SimulatedShard.Lends (id ∈ before.network.unreachable) count)
    (before.network.shard? id) (world.network.shard? id)

namespace Deployment

theorem Lends.refl (world : Deployment) (id : ShardId) : world.Lends id 0 world := by
  refine ⟨rfl, ?_⟩
  cases world.network.shard? id with
  | none => exact .none
  | some shard => exact .some ⟨rfl, rfl, fun _ => rfl⟩

theorem Lends.same_network {after : Deployment} (lends : before.Lends id count world)
    (same : after.network = world.network) : before.Lends id count after :=
  ⟨same ▸ lends.unreachable, same ▸ lends.shard⟩

theorem shard?_onShard (world : Deployment) (id other : ShardId)
    (f : SimulatedShard → SimulatedShard) :
    (world.onShard other f).network.shard? id =
      (world.network.shard? id).map fun shard => if id = other then f shard else shard := by
  simp only [onShard, onNetwork, Network.shard?, Network.update, OrderedMap.get?_mapValues]

/-- A change of a shard that changes how many connections to it are open. -/
theorem Lends.onShard {f : SimulatedShard → SimulatedShard} {after : Nat}
    (lends : before.Lends id count world)
    (changes : ∀ {old new}, SimulatedShard.Lends (id ∈ before.network.unreachable) count old new →
      SimulatedShard.Lends (id ∈ before.network.unreachable) after old (f new)) :
    before.Lends id after (world.onShard id f) := by
  refine ⟨lends.unreachable, ?_⟩
  rw [shard?_onShard]
  have rel := lends.shard
  generalize before.network.shard? id = old, world.network.shard? id = new at rel ⊢
  cases rel with
  | none => exact .none
  | some lent =>
      refine .some ?_
      dsimp only
      rw [if_pos rfl]
      exact changes lent

/-- A change of another shard changes nothing for this one. -/
theorem Lends.onOther {f : SimulatedShard → SimulatedShard} (lends : before.Lends id count world)
    (different : id ≠ shard) : before.Lends id count (world.onShard shard f) := by
  refine ⟨lends.unreachable, ?_⟩
  rw [shard?_onShard]
  simpa only [if_neg different, Option.map_id'] using lends.shard

end Deployment

/-! ### Work over connections -/

namespace Connection

open Activity (Returns)

/-- How many connections to the shard `id` one connection to `shard` counts for. -/
def counts (id shard : ShardId) : Nat := if id = shard then 1 else 0

theorem givesBack_release :
    GivesBack (before.Lends id) (counts id shard) (release shard) := by
  intro world others total
  unfold counts at total
  by_cases same : id = shard
  · subst same
    rw [if_pos rfl] at total
    exact total.onShard .disconnect
  · rw [if_neg same, Nat.zero_add] at total
    exact total.onOther same

theorem lends_connect (granted : world.network.refusal? shard = none)
    (total : before.Lends id others world) :
    before.Lends id (counts id shard + others) (world.onShard shard .connect) := by
  unfold counts
  by_cases same : id = shard
  · subst same
    rw [if_pos rfl]
    have reachable : id ∉ before.network.unreachable := by
      rw [← total.unreachable]
      intro unreachable
      rw [Network.refusal?, if_pos unreachable] at granted
      cases granted
    exact total.onShard fun lends => lends.connect reachable
  · rw [if_neg same, Nat.zero_add]
    exact total.onOther same

/-- What is opened is held if it is granted. -/
theorem holds_acquire : Activity.Holds (before.Lends id)
    (fun result : Except Error Unit => if result.isOk then counts id shard else 0)
    (acquire shard) 0 := by
  intro world others total
  rw [Nat.zero_add] at total
  dsimp only
  cases granted : world.network.refusal? shard with
  | some error => exact ⟨0, (Nat.zero_add others).symm ▸ total, rfl⟩
  | none => exact ⟨counts id shard, lends_connect granted total, rfl⟩

/-- Work over a connection of its own gives it back, as it gives back all else it takes. -/
theorem returns_use {work : Work α} (returns : Returns (before.Lends id) work 0) :
    Returns (before.Lends id) (use shard work) 0 := by
  refine Activity.Holds.bind holds_acquire fun result => ?_
  cases result with
  | error error => exact rfl
  | ok granted =>
      have back : GivesBack (before.Lends id) (counts id shard) (release shard) :=
        givesBack_release
      have guarded := Activity.Returns.guarded back returns
      rwa [Nat.zero_add] at guarded

variable {statement : Statement}

theorem returns_send : Returns (before.Lends id) (send shard statement) 0 := by
  refine Job.returns_bind (Job.returns_bind Job.returns_look fun _ => Job.returns_sleep) fun _ =>
    Job.returns_bind (Job.returns_change fun count world total => ?_) fun _ => Job.returns_look
  by_cases same : id = shard
  · subst same
    exact total.onShard fun lends => ⟨lends.connections, lends.overdrawn, lends.opened⟩
  · exact total.onOther same

theorem returns_execute : Returns (before.Lends id) (execute shard statement) 0 :=
  Job.returns_bind returns_send fun _ => Job.returns_look

theorem returns_query : Returns (before.Lends id) (query shard statement) 0 :=
  Job.returns_bind returns_send fun _ => Job.returns_look

theorem returns_batchAfter (counted : Nat) (statements : List Statement) :
    Returns (before.Lends id) (batchAfter shard counted statements) 0 := by
  induction statements generalizing counted with
  | nil => exact rfl
  | cons statement rest ih =>
      refine Job.returns_bind returns_execute fun affected => ?_
      split
      · exact ih _
      · exact rfl

end Connection

/-! ### Stores -/

open Activity (Returns)

/-- The ledger is in memory or on the shards. -/
inductive LedgerStore.Provided : LedgerStore Deployment → Prop where
  | inMemory : Provided .inMemory
  | onShards (table : LedgerTable) : Provided (.onShards table)

/-- The reference tables are in memory or on the shards. -/
inductive TableStore.Provided : TableStore Deployment → Prop where
  | inMemory : Provided .inMemory
  | onShards (options : StatementOptions) : Provided (.onShards options)

/-- The schemas are read in memory or from the catalogs of the shards. -/
inductive Introspector.Provided : Introspector Deployment → Prop where
  | inMemory : Provided .inMemory
  | onShards (catalog : Catalog) : Provided (.onShards catalog)

namespace LedgerStore.Provided

variable {ledger : LedgerStore Deployment}

theorem returns_ensure (provided : ledger.Provided) :
    Returns (before.Lends id) (ledger.ensure shard) 0 := by
  cases provided with
  | inMemory => exact Job.returns_change fun _ _ total => total.same_network rfl
  | onShards =>
      exact Connection.returns_use (Job.returns_bind Connection.returns_execute fun _ => rfl)

theorem returns_recordApplied (provided : ledger.Provided) (migration : Migration)
    (duration : Duration) :
    Returns (before.Lends id) (ledger.recordApplied shard migration duration) 0 := by
  cases provided with
  | inMemory => exact Job.returns_change fun _ _ total => total.same_network rfl
  | onShards =>
      exact Job.returns_bind Job.returns_look fun _ =>
        Connection.returns_use (Job.returns_bind Connection.returns_execute fun _ => rfl)

theorem returns_recordRolledBack (provided : ledger.Provided) (migration : String) :
    Returns (before.Lends id) (ledger.recordRolledBack shard migration) 0 := by
  cases provided with
  | inMemory =>
      refine Job.returns_transact fun count world after value stamped total => ?_
      obtain ⟨ledger, -, changed⟩ := bind_eq_ok_iff.mp stamped
      cases changed
      exact total.same_network rfl
  | onShards =>
      refine Job.returns_bind Job.returns_look fun _ =>
        Connection.returns_use (Job.returns_bind Connection.returns_execute fun affected => ?_)
      split
      · exact rfl
      · exact rfl

theorem returns_history (provided : ledger.Provided) :
    Returns (before.Lends id) (ledger.history shard) 0 := by
  cases provided with
  | inMemory => exact Job.returns_look
  | onShards =>
      exact Connection.returns_use (Job.returns_bind Connection.returns_query fun _ => rfl)

end LedgerStore.Provided

namespace TableStore.Provided

variable {store : TableStore Deployment}

theorem returns_upsert (provided : store.Provided) (table : ReferenceTable) (rows : List Row) :
    Returns (before.Lends id) (store.upsert shard table rows) 0 := by
  cases provided with
  | inMemory =>
      refine Job.returns_transact fun count world after value written total => ?_
      obtain ⟨tables, -, changed⟩ := bind_eq_ok_iff.mp written
      cases changed
      exact total.same_network rfl
  | onShards =>
      refine Job.returns_bind rfl fun statements => ?_
      split
      · exact rfl
      · exact Connection.returns_use (Connection.returns_batchAfter 0 statements)

theorem returns_readAll (provided : store.Provided) (table : ReferenceTable) :
    Returns (before.Lends id) (store.readAll shard table) 0 := by
  cases provided with
  | inMemory => exact Job.returns_look
  | onShards =>
      exact Job.returns_bind rfl fun statement => Connection.returns_use Connection.returns_query

theorem returns_contentHash (provided : store.Provided) (table : ReferenceTable) :
    Returns (before.Lends id) (store.contentHash shard table) 0 :=
  Job.returns_bind (provided.returns_readAll table) fun _ => rfl

end TableStore.Provided

theorem Introspector.Provided.returns {introspect : Introspector Deployment}
    (provided : introspect.Provided) : Returns (before.Lends id) (introspect shard) 0 := by
  cases provided with
  | inMemory => exact Job.returns_look
  | onShards =>
      exact Connection.returns_use (Job.returns_bind Connection.returns_query fun _ => rfl)

/-! ### Migrations -/

namespace Migration

variable {ledger : LedgerStore Deployment} (migration : Migration)

theorem returns_elapsedSince (begun : Nat) :
    Returns (before.Lends id) (elapsedSince begun) 0 :=
  Job.returns_bind (fun _ => rfl) fun _ => rfl

theorem returns_runForward (provided : ledger.Provided) :
    Returns (before.Lends id) (migration.runForward ledger shard) 0 :=
  Connection.returns_use <| Job.returns_bind (fun _ => rfl) fun begun =>
    Job.returns_bind Connection.returns_execute fun _ =>
      Job.returns_bind (returns_elapsedSince begun) fun duration =>
        Job.returns_bind (provided.returns_recordApplied migration duration) fun _ => rfl

theorem returns_runBackward (provided : ledger.Provided) :
    Returns (before.Lends id) (migration.runBackward ledger shard) 0 :=
  Connection.returns_use <| Job.returns_bind (fun _ => rfl) fun begun =>
    Job.returns_bind Connection.returns_execute fun _ =>
      Job.returns_bind (provided.returns_recordRolledBack migration.id) fun _ =>
        Job.returns_bind (returns_elapsedSince begun) fun _ => rfl

theorem returns_active (provided : ledger.Provided) :
    Returns (before.Lends id) (ledger.active shard migration.id) 0 :=
  Job.returns_bind provided.returns_history fun _ => rfl

theorem returns_applyTo (provided : ledger.Provided) :
    Returns (before.Lends id) (migration.applyTo ledger shard) 0 := by
  refine Job.returns_bind provided.returns_ensure fun _ =>
    Job.returns_bind (migration.returns_active provided) fun active => ?_
  cases active with
  | none => exact migration.returns_runForward provided
  | some record =>
      dsimp only
      split
      · exact rfl
      · exact rfl

theorem returns_rollBackOn (provided : ledger.Provided) :
    Returns (before.Lends id) (migration.rollBackOn ledger shard) 0 := by
  refine Job.returns_bind provided.returns_ensure fun _ =>
    Job.returns_bind (migration.returns_active provided) fun active => ?_
  cases active with
  | none => exact rfl
  | some record =>
      dsimp only
      split
      · exact rfl
      · exact migration.returns_runBackward provided

theorem returns_visit (provided : ledger.Provided) (direction : Direction) :
    Returns (before.Lends id) (migration.visit direction ledger shard) 0 := by
  cases direction with
  | forward => exact Job.returns_adapt (migration.returns_applyTo provided)
  | backward => exact Job.returns_adapt (migration.returns_rollBackOn provided)

end Migration

/-! ### Calls -/

namespace Rollout

variable {rollout : Rollout}

theorem keeps_runCanary (provided : rollout.ledger.Provided) (direction : Direction)
    (migration : Migration) (canary : ShardId) :
    (rollout.runCanary direction migration canary).Keeps (before.Lends id others) := by
  refine Timed.keeps_bind (rollout.executor.keeps_on
    (fun _ => migration.returns_visit provided direction) canary) fun result => ?_
  cases result with
  | error error => exact Timed.keeps_pure _
  | ok outcome =>
      exact Timed.keeps_bind (rollout.executor.keeps_scatterWith
        (fun _ => migration.returns_visit provided direction) _ _) fun _ => Timed.keeps_pure _

theorem keeps_run (provided : rollout.ledger.Provided) (direction : Direction)
    (migration : Migration) (strategy : RolloutStrategy) :
    (rollout.run direction migration strategy).Keeps (before.Lends id others) := by
  have everywhere (options : ScatterOptions) : (rollout.executor.scatterWith options .all
      (rollout.operation direction migration)).Keeps (before.Lends id others) :=
    rollout.executor.keeps_scatterWith (fun _ => migration.returns_visit provided direction) _ _
  cases strategy with
  | sequential => exact Timed.keeps_bind (everywhere _) fun _ => Timed.keeps_pure _
  | parallel => exact Timed.keeps_bind (everywhere _) fun _ => Timed.keeps_pure _
  | canary shard =>
      unfold run runUnder
      dsimp only
      cases rollout.executor.topology.get shard with
      | error error => exact Timed.keeps_pure _
      | ok known =>
          exact Timed.keeps_bind (keeps_runCanary provided direction migration shard) fun _ =>
            Timed.keeps_pure _

theorem keeps_applyEach (provided : rollout.ledger.Provided) (strategy : RolloutStrategy)
    (migrations : List Migration) :
    (rollout.applyEach strategy migrations).Keeps (before.Lends id others) := by
  induction migrations with
  | nil => exact Timed.keeps_pure _
  | cons migration rest ih =>
      refine Timed.keeps_bind (keeps_run provided .forward migration strategy) fun result => ?_
      cases result with
      | error error => exact Timed.keeps_pure _
      | ok report =>
          dsimp only
          split
          · exact Timed.keeps_bind ih fun _ => Timed.keeps_pure _
          · exact Timed.keeps_pure _

end Rollout

namespace Replicator

variable {replicator : Replicator Deployment}

theorem keeps_replicate (provided : replicator.store.Provided) (table : ReferenceTable) :
    (replicator.replicate table).Keeps (before.Lends id others) := by
  unfold replicate
  cases table.check with
  | error error => exact Timed.keeps_pure _
  | ok keyed =>
      have read : (replicator.readSource table).Keeps (before.Lends id others) :=
        Timed.keeps_bind (replicator.executor.keeps_on
          (fun _ => provided.returns_readAll table) replicator.source) fun _ =>
            Timed.keeps_pure _
      refine Timed.keeps_bind read fun result => ?_
      cases result with
      | error error => exact Timed.keeps_pure _
      | ok dataset =>
          exact Timed.keeps_bind (replicator.executor.keeps_scatterWith
            (fun _ => provided.returns_upsert table dataset.rows) _ _) fun _ =>
              Timed.keeps_pure _

theorem keeps_detectDrift (provided : replicator.store.Provided) (table : ReferenceTable) :
    (replicator.detectDrift table).Keeps (before.Lends id others) :=
  Timed.keeps_bind (replicator.executor.keeps_scatterWith
    (fun _ => provided.returns_contentHash table) _ _) fun _ => Timed.keeps_pure _

end Replicator

namespace Surveyor

variable {surveyor : Surveyor Deployment}

theorem returns_snapshot (provided : surveyor.introspect.Provided) (cancelled : Bool) :
    Returns (before.Lends id) (surveyor.snapshot shard cancelled) 0 :=
  Job.returns_adapt (surveyor.executor.returns_attempt (fun _ => provided.returns) shard cancelled)

theorem keeps_compare (provided : surveyor.introspect.Provided) (shard baseline : ShardId) :
    (surveyor.compare shard baseline).Keeps (before.Lends id others) := by
  intro moment total
  refine Job.returns_perform (Job.returns_bind (Job.returns_both ?_ ?_) fun _ => rfl) total
  · exact returns_snapshot provided _
  · exact returns_snapshot provided _

theorem keeps_compareAll (provided : surveyor.introspect.Provided) (baseline : ShardId) :
    (surveyor.compareAll baseline).Keeps (before.Lends id others) := by
  refine Timed.keeps_bind (fun moment total => total) fun cancelled => ?_
  refine Timed.keeps_bind
    (fun moment total => Job.returns_perform (returns_snapshot provided cancelled) total)
    fun result => ?_
  cases result with
  | error error => exact Timed.keeps_pure _
  | ok expected =>
      have comparing (shard : Shard) : Returns (before.Lends id) (do
          let actual ← ExceptT.adapt (comparisonFailed shard.id) (surveyor.introspect shard.id)
          return .between actual expected : Work SchemaDiff) 0 :=
        Job.returns_bind (Job.returns_adapt provided.returns) fun _ => rfl
      exact Timed.keeps_bind (surveyor.executor.keeps_scatterWith comparing _ _) fun _ =>
        Timed.keeps_pure _

end Surveyor

/-- A call to the shards of a fleet. -/
inductive FleetCall where
  | rollOut (rollout : Rollout) (direction : Direction) (migration : Migration)
      (strategy : RolloutStrategy)
  | applyAll (rollout : Rollout) (migrations : List Migration) (strategy : RolloutStrategy)
  | replicate (replicator : Replicator Deployment) (table : ReferenceTable)
  | detectDrift (replicator : Replicator Deployment) (table : ReferenceTable)
  | compare (surveyor : Surveyor Deployment) (shard baseline : ShardId)
  | compareAll (surveyor : Surveyor Deployment) (baseline : ShardId)

namespace FleetCall

/-- The call, whatever it brings back. -/
def perform : FleetCall → Timed Deployment Unit
  | .rollOut rollout direction migration strategy => do
      let _ ← rollout.run direction migration strategy
  | .applyAll rollout migrations strategy => do
      let _ ← rollout.applyAll migrations strategy
  | .replicate replicator table => do
      let _ ← replicator.replicate table
  | .detectDrift replicator table => do
      let _ ← replicator.detectDrift table
  | .compare surveyor shard baseline => do
      let _ ← surveyor.compare shard baseline
  | .compareAll surveyor baseline => do
      let _ ← surveyor.compareAll baseline

/-- The store that the call works on is in memory or on the shards. -/
def Provided : FleetCall → Prop
  | .rollOut rollout _ _ _ | .applyAll rollout _ _ => rollout.ledger.Provided
  | .replicate replicator _ | .detectDrift replicator _ => replicator.store.Provided
  | .compare surveyor _ _ | .compareAll surveyor _ => surveyor.introspect.Provided

/-- While a call is under way it may hold connections, but it leaves none open. -/
theorem keeps_perform {call : FleetCall} (provided : call.Provided) :
    call.perform.Keeps (before.Lends id others) := by
  cases call with
  | rollOut rollout direction migration strategy =>
      exact Timed.keeps_bind (Rollout.keeps_run provided direction migration strategy) fun _ =>
        Timed.keeps_pure _
  | applyAll rollout migrations strategy =>
      exact Timed.keeps_bind (Rollout.keeps_applyEach provided strategy _) fun _ =>
        Timed.keeps_pure _
  | replicate replicator table =>
      exact Timed.keeps_bind (Replicator.keeps_replicate provided table) fun _ =>
        Timed.keeps_pure _
  | detectDrift replicator table =>
      exact Timed.keeps_bind (Replicator.keeps_detectDrift provided table) fun _ =>
        Timed.keeps_pure _
  | compare surveyor shard baseline =>
      exact Timed.keeps_bind (Surveyor.keeps_compare provided shard baseline) fun _ =>
        Timed.keeps_pure _
  | compareAll surveyor baseline =>
      exact Timed.keeps_bind (Surveyor.keeps_compareAll provided baseline) fun _ =>
        Timed.keeps_pure _

end FleetCall

namespace Network

/-- No connection is open. -/
def AllClosed (network : Network) : Prop :=
  ∀ id shard, network.shard? id = some shard → shard.connections = 0

/-- The same shards are there, and no connection is open. Since then none was given back that was
not open, and none was opened to a shard that cannot be reached. -/
structure GaveBack (before after : Network) : Prop where
  unreachable : after.unreachable = before.unreachable
  shards : ∀ id, Option.Rel (fun old new : SimulatedShard =>
      new.connections = 0 ∧ new.overdrawn = old.overdrawn ∧
        (id ∈ before.unreachable → new.opened = old.opened))
    (before.shard? id) (after.shard? id)

end Network

/-- Migrations, replication, drift detection and comparisons give back every connection they open:
called while none is open, they leave none open, whatever the shards answer and however long they
take, and however the call ends. No count of open connections ever falls below zero, and no
connection is opened to a shard that cannot be reached. -/
theorem connections_given_back (call : FleetCall) (moment : Moment Deployment)
    (provided : call.Provided) (closed : moment.world.network.AllClosed) :
    moment.world.network.GaveBack (call.perform moment).2.world.network := by
  have lends (id : ShardId) : moment.world.Lends id 0 (call.perform moment).2.world :=
    FleetCall.keeps_perform provided moment (.refl moment.world id)
  refine ⟨(lends default).unreachable, fun id => ?_⟩
  have lent := (lends id).shard
  have idle := closed id
  generalize moment.world.network.shard? id = old,
    (call.perform moment).2.world.network.shard? id = new at lent idle ⊢
  cases lent with
  | none => exact .none
  | @some old new lent =>
      refine .some ⟨?_, lent.overdrawn, lent.opened⟩
      rw [lent.connections, idle old rfl]

/-- A rollout to two shards of which the second cannot be reached. The first takes ten milliseconds
for a statement, and the time limit cuts it off while two connections are open. -/
theorem connections_given_back_cut :
    let executor : Executor := ⟨.pair, { limit := .ofMillis 35 }⟩
    let migration : Migration := ⟨"1", "accounts", "CREATE TABLE a (b INT)", "DROP TABLE a", "11"⟩
    let call := FleetCall.rollOut ⟨executor, .onShards ⟨"ledger", .numbered⟩⟩ .forward migration
      .parallel
    let network := ((Network.ofTopology .pair).update Shard.first.id fun shard =>
      { shard with latency := .ofMillis 10 }).setReachable Shard.second.id false
    let moment : Moment Deployment := { now := 0, world := { network, wallClock := 0 } }
    call.Provided ∧ network.AllClosed ∧ network.GaveBack (call.perform moment).2.world.network ∧
      ((call.perform moment).2.world.shard Shard.first.id).opened = 4 := by
  intro executor migration call network moment
  have provided : call.Provided := LedgerStore.Provided.onShards _
  have closed : network.AllClosed := by
    intro id shard found
    have all : ∀ entry ∈ network.shards.entries, entry.2.connections = 0 := by decide +kernel
    exact all (id, shard) (OrderedMap.mem_entries.mpr found)
  exact ⟨provided, closed, connections_given_back call moment provided closed, by decide +kernel⟩

end ShardFleet
