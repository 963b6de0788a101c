import ShardFleet.Proofs.Instants
import ShardFleet.Proofs.Migration.Visits
import ShardFleet.Proofs.Reference.Relations

/-!
How far upserts come.

Rows are looked at before anything is written or a connection is asked for, so an upsert of a row
without its key fails and changes nothing, wherever the row stands (`TableBook.upsert_unkeyed`,
`Upsert.statements_unkeyed`). An upsert that has its statements executes them in order: what the
shard accepts is behind it as soon as it is executed (`Connection.brings_batchAfter`), and the first
statement that fails is the last one that the shard notes (`TableStore.upsert_extent`).
-/

namespace ShardFleet

open ShardFleet.Digest (Bytes)

/-! ### Rows without keys -/

/-- A row has no value in a column of the primary key. -/
def ReferenceTable.Unkeyed (table : ReferenceTable) (row : Row) : Prop :=
  ∃ column ∈ table.primaryKey, row.getD column .null = .null

section Unkeyed

variable {table : ReferenceTable} {row : Row} {rows : List Row}

theorem ReferenceTable.Unkeyed.keyed_ne_ok (unkeyed : table.Unkeyed row) (mem : row ∈ rows)
    (entries : List (Bytes × Row)) : table.keyed rows ≠ .ok entries := by
  intro keyed
  obtain ⟨rfl, named⟩ := keyed_eq_ok_iff.mp keyed
  obtain ⟨entry, also, rfl⟩ := List.mem_map.mp mem
  obtain ⟨values, has, -⟩ := bind_eq_ok_iff.mp (named entry also)
  obtain ⟨rfl, some⟩ := keyOf_eq_ok_iff.mp has
  obtain ⟨column, key, none⟩ := unkeyed
  have value := some _ (List.mem_map_of_mem key)
  rw [none] at value
  cases value

theorem exists_error_of_ne_ok {α : Type} {attempt : Except Error α}
    (never : ∀ value, attempt ≠ .ok value) : ∃ error, attempt = .error error := by
  cases attempt with
  | error error => exact ⟨error, rfl⟩
  | ok value => exact absurd rfl (never value)

theorem TableBook.upsert_unkeyed (unkeyed : table.Unkeyed row) (mem : row ∈ rows)
    (book : TableBook) (shard : ShardId) :
    ∃ error, book.upsert shard table rows = .error error := by
  refine exists_error_of_ne_ok fun after wrote => ?_
  obtain ⟨-, entries, keyed, -⟩ := upsert_eq_ok_iff.mp wrote
  exact unkeyed.keyed_ne_ok mem entries keyed

theorem Upsert.statements_unkeyed (unkeyed : table.Unkeyed row) (mem : row ∈ rows)
    (options : StatementOptions) :
    ∃ error, Upsert.statements options table rows = .error error := by
  refine exists_error_of_ne_ok fun list made => ?_
  obtain ⟨-, _, _, entries, -, -, keyed, -⟩ := statements_eq_ok_iff.mp made
  exact unkeyed.keyed_ne_ok mem entries keyed

end Unkeyed

/-! ### Statements in a row -/

namespace SimulatedShard

/-- The shard with statements at the end of its log. -/
def noting (statements : List Statement) (shard : SimulatedShard) : SimulatedShard :=
  { shard with log := shard.log ++ statements }

/-- The shard after a connection was opened, statements were noted over it, and it was given
back. -/
def serve (statements : List Statement) (shard : SimulatedShard) : SimulatedShard :=
  { shard with log := shard.log ++ statements, opened := shard.opened + 1 }

theorem disconnect_noting_connect (statements : List Statement) (shard : SimulatedShard) :
    (shard.connect.noting statements).disconnect = shard.serve statements := by
  simp [connect, noting, disconnect, serve]

theorem noting_receive (statement : Statement) (statements : List Statement)
    (shard : SimulatedShard) :
    (shard.receive statement).noting statements = shard.noting (statement :: statements) := by
  simp [receive, noting]

theorem receive_noting (statement : Statement) (statements : List Statement)
    (shard : SimulatedShard) :
    (shard.noting statements).receive statement = shard.noting (statements ++ [statement]) := by
  simp [receive, noting]

end SimulatedShard

namespace Deployment

variable {world : Deployment} {id : ShardId} {simulated : SimulatedShard}

theorem present_onShard (present : world.network.shard? id = some simulated)
    (f : SimulatedShard → SimulatedShard) :
    (world.onShard id f).network.shard? id = some (f simulated) := by
  have held : (world.share id).simulated = some simulated := present
  have later : (world.onShard id f).share id = (world.share id).onShard f :=
    share_onShard_self world id f
  exact (congrArg Share.simulated later).trans (congrArg (Option.map f) held)

theorem onShard_onShard (world : Deployment) (id : ShardId)
    (first second : SimulatedShard → SimulatedShard) :
    (world.onShard id first).onShard id second =
      world.onShard id fun shard => second (first shard) := by
  simp only [onShard, onNetwork, Network.update, Deployment.mk.injEq, Network.mk.injEq, and_true]
  refine OrderedMap.ext_entries ?_
  simp only [OrderedMap.mapValues, List.map_map]
  refine List.map_congr_left fun entry _ => Prod.ext rfl ?_
  by_cases same : entry.1 = id <;> simp [same]

end Deployment

namespace Connection

open Activity (Brings)

variable {α : Type} {id : ShardId} {world after : Deployment} {simulated : SimulatedShard}
  {statement failing : Statement} {accepted rest : List Statement} {error : Error}
  {counted : Nat}

/-- A shard that takes no time for its statements answers at once. -/
theorem brings_send (present : world.network.shard? id = some simulated)
    (prompt : simulated.latency = ⟨0⟩) (statement : Statement) :
    Brings (simulated.verdict statement) (world.onShard id (·.receive statement))
      (send id statement) world := by
  have now : (world.shard id).latency = simulated.latency := by
    rw [Deployment.shard, present]
    rfl
  have none : simulated.latency.sleepTicks = 0 := by
    rw [prompt]
    decide
  have waits : Brings (.ok ()) world (await id) world :=
    Job.brings_bind (Job.brings_look (congrArg Except.ok now)) (Job.brings_sleep none)
  refine Job.brings_bind waits (Job.brings_bind Job.brings_change (Job.brings_look ?_))
  rw [Deployment.shard, Deployment.present_onShard present]
  rfl

theorem brings_execute (present : world.network.shard? id = some simulated)
    (prompt : simulated.latency = ⟨0⟩) (accepts : simulated.verdict statement = .ok ()) :
    Brings (.ok simulated.affected) (world.onShard id (·.receive statement))
      (execute id statement) world := by
  refine Job.brings_bind (accepts ▸ brings_send present prompt statement) (Job.brings_look ?_)
  rw [Deployment.shard, Deployment.present_onShard present]
  rfl

theorem brings_execute_error (present : world.network.shard? id = some simulated)
    (prompt : simulated.latency = ⟨0⟩) (fails : simulated.verdict statement = .error error) :
    Brings (.error error) (world.onShard id (·.receive statement)) (execute id statement) world :=
  Job.brings_bind_error (fails ▸ brings_send present prompt statement)

/-- Statements that are accepted are behind a batch, which goes on with the others. -/
theorem brings_batchAfter {result : Except Error Nat}
    (present : world.network.shard? id = some simulated) (prompt : simulated.latency = ⟨0⟩)
    (accepts : ∀ statement ∈ accepted, simulated.verdict statement = .ok ())
    (countable : counted + accepted.length * simulated.affected < UInt64.size)
    (onward : Brings result after
      (batchAfter id (counted + accepted.length * simulated.affected) rest)
      (world.onShard id (·.noting accepted))) :
    Brings result after (batchAfter id counted (accepted ++ rest)) world := by
  induction accepted generalizing world simulated counted with
  | nil => simpa [SimulatedShard.noting, Deployment.onShard, Deployment.onNetwork, Network.update,
      OrderedMap.mapValues] using onward
  | cons statement later ih =>
      obtain ⟨first, others⟩ := List.forall_mem_cons.mp accepts
      rw [List.length_cons, Nat.succ_mul] at countable onward
      have few : counted + simulated.affected ≤ mostRows := by
        unfold mostRows
        omega
      refine Job.brings_bind (brings_execute present prompt first) ?_
      rw [if_pos few]
      have there := Deployment.present_onShard present (·.receive statement)
      refine ih there prompt others ?_ ?_
      · have same : (simulated.receive statement).affected = simulated.affected := rfl
        rw [same]
        omega
      · rw [Deployment.onShard_onShard]
        simp only [SimulatedShard.noting_receive]
        have same : (simulated.receive statement).affected = simulated.affected := rfl
        rw [same, Nat.add_assoc, Nat.add_comm simulated.affected]
        exact onward

theorem brings_batch (present : world.network.shard? id = some simulated)
    (prompt : simulated.latency = ⟨0⟩)
    (accepts : ∀ statement ∈ accepted, simulated.verdict statement = .ok ())
    (countable : accepted.length * simulated.affected < UInt64.size) :
    Brings (.ok (accepted.length * simulated.affected)) (world.onShard id (·.noting accepted))
      (batch id accepted) world := by
  have few : 0 + accepted.length * simulated.affected < UInt64.size := by rwa [Nat.zero_add]
  have none : Brings (.ok (0 + accepted.length * simulated.affected))
      (world.onShard id (·.noting accepted))
      (batchAfter id (0 + accepted.length * simulated.affected) [])
      (world.onShard id (·.noting accepted)) := ⟨rfl, rfl⟩
  have all := brings_batchAfter present prompt accepts few none
  rwa [List.append_nil, Nat.zero_add] at all

/-- The first statement that fails is the last one of a batch that is executed. -/
theorem brings_batch_error (present : world.network.shard? id = some simulated)
    (prompt : simulated.latency = ⟨0⟩)
    (accepts : ∀ statement ∈ accepted, simulated.verdict statement = .ok ())
    (fails : simulated.verdict failing = .error error)
    (countable : accepted.length * simulated.affected < UInt64.size) :
    Brings (.error error) (world.onShard id (·.noting (accepted ++ [failing])))
      (batch id (accepted ++ failing :: rest)) world := by
  refine brings_batchAfter present prompt accepts (by rwa [Nat.zero_add]) ?_
  have there := Deployment.present_onShard present (·.noting accepted)
  have last := brings_execute_error there prompt fails
  rw [Deployment.onShard_onShard] at last
  simp only [SimulatedShard.receive_noting] at last
  exact Job.brings_bind_error last

theorem brings_use {result : Except Error α} {work : Work α}
    (granted : world.network.refusal? id = none)
    (brings : Brings result after work (world.onShard id .connect)) :
    Brings result (release id after) (use id work) world := by
  have opens : Brings (.ok ()) (world.onShard id .connect) (acquire id) world :=
    Job.brings_transact (by rw [granted])
  exact Job.brings_bind opens (brings.guarded (release id))

theorem brings_use_error {work : Work α} (refused : world.network.refusal? id = some error) :
    Brings (.error error) world (use id work) world := by
  refine Job.brings_bind_error (Job.brings_transact_error ?_)
  rw [refused]

/-- Over a connection of its own a batch is noted as far as it comes. -/
theorem brings_use_batch {result : Except Error Nat} {statements noted : List Statement}
    (granted : world.network.refusal? id = none)
    (brings : Brings result ((world.onShard id .connect).onShard id (·.noting noted))
      (batch id statements) (world.onShard id .connect)) :
    Brings result (world.onShard id (·.serve noted)) (use id (batch id statements)) world := by
  have left : release id ((world.onShard id .connect).onShard id (·.noting noted)) =
      world.onShard id (·.serve noted) := by
    rw [release, Deployment.onShard_onShard, Deployment.onShard_onShard]
    simp only [SimulatedShard.disconnect_noting_connect]
  exact left ▸ brings_use granted brings

end Connection

/-! ### Upserts -/

namespace TableStore

open Activity (Brings)

variable {options : StatementOptions} {table : ReferenceTable} {rows : List Row} {shard : ShardId}
  {world : Deployment} {simulated : SimulatedShard} {statements : List Statement} {error : Error}

theorem brings_inMemory_error (fails : world.tables.upsert shard table rows = .error error) :
    Brings (.error error) world (inMemory.upsert shard table rows) world := by
  refine Job.brings_transact_error ?_
  rw [fails]
  rfl

theorem brings_onShards_error (fails : Upsert.statements options table rows = .error error) :
    Brings (.error error) world ((onShards options).upsert shard table rows) world := by
  unfold onShards
  dsimp only
  rw [fails]
  exact ⟨rfl, rfl⟩

theorem onShards_upsert (made : Upsert.statements options table rows = .ok statements) :
    (onShards options).upsert shard table rows =
      if statements.isEmpty then return 0
      else Connection.use shard (Connection.batch shard statements) := by
  unfold onShards
  dsimp only
  rw [made]
  rfl

/-- An upsert of a row without its key fails and changes nothing, be it in memory or on a shard.
Other upserts on a shard execute their statements in order, and the shard notes them up to the
first that fails. -/
theorem upsert_extent (options : StatementOptions) (table : ReferenceTable) (rows : List Row)
    (shard : ShardId) (moment : Moment Deployment) :
    (∀ row ∈ rows, table.Unkeyed row →
      (∃ error, (inMemory.upsert shard table rows).perform moment = (.error error, moment)) ∧
      ∃ error, ((onShards options).upsert shard table rows).perform moment =
        (.error error, moment)) ∧
    ∀ statements, Upsert.statements options table rows = .ok statements →
      (statements = [] →
        ((onShards options).upsert shard table rows).perform moment = (.ok 0, moment)) ∧
      (statements ≠ [] → ∀ error, moment.world.network.refusal? shard = some error →
        ((onShards options).upsert shard table rows).perform moment = (.error error, moment)) ∧
      ∀ simulated, moment.world.network.refusal? shard = none →
        moment.world.network.shard? shard = some simulated → simulated.latency = ⟨0⟩ →
        (statements ≠ [] → (∀ statement ∈ statements, simulated.verdict statement = .ok ()) →
          statements.length * simulated.affected < UInt64.size →
          ((onShards options).upsert shard table rows).perform moment =
            (.ok (statements.length * simulated.affected),
              { moment with world := moment.world.onShard shard (·.serve statements) })) ∧
        ∀ accepted failing rest error, statements = accepted ++ failing :: rest →
          (∀ statement ∈ accepted, simulated.verdict statement = .ok ()) →
          simulated.verdict failing = .error error →
          accepted.length * simulated.affected < UInt64.size →
          ((onShards options).upsert shard table rows).perform moment =
            (.error error,
              { moment with
                world := moment.world.onShard shard (·.serve (accepted ++ [failing])) }) := by
  refine ⟨fun row mem unkeyed => ⟨?_, ?_⟩, fun statements made => ?_⟩
  · obtain ⟨error, fails⟩ := TableBook.upsert_unkeyed unkeyed mem moment.world.tables shard
    exact ⟨error, Job.perform_of_brings (brings_inMemory_error fails)⟩
  · obtain ⟨error, fails⟩ := Upsert.statements_unkeyed unkeyed mem options
    exact ⟨error, Job.perform_of_brings (brings_onShards_error fails)⟩
  · rw [onShards_upsert made]
    refine ⟨?_, fun some error refused => ?_, fun simulated granted present prompt => ⟨?_, ?_⟩⟩
    · rintro rfl
      rfl
    · rw [if_neg (by simpa using some)]
      exact Job.perform_of_brings (Connection.brings_use_error refused)
    · intro some accepts countable
      rw [if_neg (by simpa using some)]
      have connected := Deployment.present_onShard present .connect
      refine Job.perform_of_brings (Connection.brings_use_batch granted ?_)
      have all := Connection.brings_batch connected prompt accepts countable
      exact all
    · rintro accepted failing rest error rfl accepts fails countable
      rw [if_neg (by simp)]
      have connected := Deployment.present_onShard present .connect
      refine Job.perform_of_brings (Connection.brings_use_batch granted ?_)
      exact Connection.brings_batch_error connected prompt accepts fails countable

/-- Of three countries the third stands in a statement of its own, which the shard refuses; with a
country without a code nothing is written at all. -/
theorem upsert_extent_countries :
    let table := ReferenceTable.new "countries" ["code"] ["name"]
    let country := fun code name : String =>
      (OrderedMap.ofList [("code", .text code), ("name", .text name)] : Row)
    let rows := [country "DE" "Germany", country "FR" "France", country "IT" "Italy"]
    let nameless : Row := OrderedMap.ofList [("code", .null), ("name", .text "Utopia")]
    let simulated := ({} : SimulatedShard).failOn "VALUES ($1, $2) ON" "full"
    let network : Network := ⟨OrderedMap.empty.insert ⟨"eu-1"⟩ simulated, []⟩
    let moment : Moment Deployment := { now := 0, world := { network, wallClock := 7 } }
    (∃ first second error, Upsert.statements ⟨.numbered, 4⟩ table rows = .ok [first, second] ∧
      ((onShards ⟨.numbered, 4⟩).upsert ⟨"eu-1"⟩ table rows).perform moment = (.error error,
        { moment with world := moment.world.onShard ⟨"eu-1"⟩ (·.serve [first, second]) })) ∧
    ∃ error, ((onShards ⟨.numbered, 4⟩).upsert ⟨"eu-1"⟩ table (rows ++ [nameless])).perform moment =
      (.error error, moment) := by
  intro table country rows nameless simulated network moment
  constructor
  · obtain ⟨list, made, verdicts⟩ := exists_eq_ok
      (show (Upsert.statements ⟨.numbered, 4⟩ table rows).toOption.map
        (List.map fun statement => (simulated.verdict statement).toOption) = some [some (), none] by
        decide +kernel)
    obtain ⟨first, _, rfl, accepts, others⟩ := List.map_eq_cons_iff.mp verdicts
    obtain ⟨second, _, rfl, refuses, none⟩ := List.map_eq_cons_iff.mp others
    obtain rfl := List.map_eq_nil_iff.mp none
    obtain ⟨⟨⟩, accepted, -⟩ := exists_eq_ok (congrArg (Option.map id) accepts)
    cases refused : simulated.verdict second with
    | ok value => rw [refused] at refuses; cases refuses
    | error error =>
        refine ⟨first, second, error, made, ?_⟩
        have extent := (upsert_extent ⟨.numbered, 4⟩ table rows ⟨"eu-1"⟩ moment).2 _ made
        have countable : 1 * 1 < UInt64.size := by decide
        exact (extent.2.2 simulated rfl rfl rfl).2 [first] second [] error rfl
          (List.forall_mem_singleton.mpr accepted) refused countable
  · refine ((upsert_extent ⟨.numbered, 4⟩ table (rows ++ [nameless]) ⟨"eu-1"⟩ moment).1 nameless
      (by simp) ?_).2
    exact ⟨"code", by decide, by decide⟩

end TableStore

end ShardFleet
